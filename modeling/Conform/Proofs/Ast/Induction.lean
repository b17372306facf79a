import Conform.Ast.Basic
import Conform.Proofs.Equality

namespace Conform

namespace Ast

/-- Induction with the hypothesis for the type of every key of a schema. -/
@[elab_as_elim, induction_eliminator]
theorem induction {motive : Ast → Prop} (nominal : ∀ p info, motive (nominal p info))
    (any : ∀ info, motive (any info))
    (constrained : ∀ type rule, motive type → motive (constrained type rule))
    (converted : ∀ type functions, motive type → motive (converted type functions))
    (sum : ∀ left right info, motive left → motive right → motive (sum left right info))
    (defaulted : ∀ type value, motive type → motive (defaulted type value))
    (enum : ∀ type values, motive type → motive (enum type values))
    (array : ∀ member info, motive member → motive (array member info))
    (map : ∀ key value info, motive key → motive value → motive (map key value info))
    (schema : ∀ s : Schema Ast String, (∀ k ∈ s.keys, motive k.type) → motive (schema s))
    (safe : ∀ type, motive type → motive (safe type))
    (lax : ∀ type, motive type → motive (lax type))
    (maybe : ∀ type, motive type → motive (maybe type))
    (named : ∀ identifier info, motive (named identifier info)) (a : Ast) : motive a := by
  refine @Ast.rec motive (fun s => ∀ k ∈ s.keys, motive k.type)
    (fun keys => ∀ k ∈ keys, motive k.type) (fun k => motive k.type) nominal any constrained
    converted sum defaulted enum array map schema safe lax maybe named ?_ ?_ ?_ ?_ a
  · exact fun _ _ _ _ _ hkeys => hkeys
  · simp
  · exact fun k ks hk hks => List.forall_mem_cons.mpr ⟨hk, hks⟩
  · exact fun _ _ _ htype => htype

theorem beqKeys_refl {keys : List (Key Ast)} (h : ∀ k ∈ keys, k.type.beq k.type = true) :
    beqKeys keys keys = true := by
  induction keys with
  | nil => rfl
  | cons k ks ih =>
    obtain ⟨hk, hks⟩ := List.forall_mem_cons.mp h
    simp [beqKeys, hk, ih hks]

theorem beq_refl (a : Ast) : a.beq a = true := by
  induction a with
  | schema s ih => simp [beq, beqKeys_refl ih]
  | enum type values ih => simp [beq, ih, Value.beqItems_refl]
  | _ => simp_all [beq]

instance : ReflBEq Ast := ⟨fun {a} => a.beq_refl⟩

end Ast

mutual

/-- A property holds of a written type and of all those in it, at every depth. -/
def Ast.Everywhere (P : Ast → Prop) : Ast → Prop
  | .nominal p info => P (.nominal p info)
  | .any info => P (.any info)
  | .constrained type rule => P (.constrained type rule) ∧ type.Everywhere P
  | .converted type functions => P (.converted type functions) ∧ type.Everywhere P
  | .sum left right info => P (.sum left right info) ∧ left.Everywhere P ∧ right.Everywhere P
  | .defaulted type value => P (.defaulted type value) ∧ type.Everywhere P
  | .enum type values => P (.enum type values) ∧ type.Everywhere P
  | .array member info => P (.array member info) ∧ member.Everywhere P
  | .map key value info => P (.map key value info) ∧ key.Everywhere P ∧ value.Everywhere P
  | .schema s => P (.schema s) ∧ writtenEverywhere P s.keys
  | .safe type => P (.safe type) ∧ type.Everywhere P
  | .lax type => P (.lax type) ∧ type.Everywhere P
  | .maybe type => P (.maybe type) ∧ type.Everywhere P
  | .named identifier info => P (.named identifier info)

def writtenEverywhere (P : Ast → Prop) : List (Key Ast) → Prop
  | [] => True
  | k :: ks => k.type.Everywhere P ∧ writtenEverywhere P ks

end

theorem writtenEverywhere_iff {P : Ast → Prop} {keys : List (Key Ast)} :
    writtenEverywhere P keys ↔ ∀ k ∈ keys, k.type.Everywhere P := by
  induction keys with
  | nil => simp [writtenEverywhere]
  | cons k ks ih => rw [writtenEverywhere, ih, List.forall_mem_cons]

theorem Ast.Everywhere.imp {P Q : Ast → Prop} (himp : ∀ a, P a → Q a) {a : Ast}
    (h : a.Everywhere P) : a.Everywhere Q := by
  induction a with
  | nominal _ _ | any _ | named _ _ => exact himp _ h
  | sum _ _ _ ihl ihr | map _ _ _ ihl ihr => exact ⟨himp _ h.1, ihl h.2.1, ihr h.2.2⟩
  | schema s ih =>
    obtain ⟨hs, hkeys⟩ := h
    rw [writtenEverywhere_iff] at hkeys
    exact ⟨himp _ hs, writtenEverywhere_iff.mpr fun k hk => ih k hk (hkeys k hk)⟩
  | constrained _ _ ih | converted _ _ ih | defaulted _ _ ih | enum _ _ ih | array _ _ ih
  | safe _ ih | lax _ ih | maybe _ ih => exact ⟨himp _ h.1, ih h.2⟩

end Conform
