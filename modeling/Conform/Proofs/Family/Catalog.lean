import Conform.Proofs.Family.Handles
import Conform.Proofs.Primitive
import Conform.Proofs.Ty.Settled

/-!
The families that a registry starts with. The identifier of a type tells its class, and whether it
is a variant that accepts nil as well; what the type gives is of this class, or nil, and is not
changed by giving it to the type again.
-/

namespace Conform

/-- The forms in which the types of a family come. -/
inductive Variant where
  | plain | optional | maybe
  deriving DecidableEq

namespace Variant

instance {P : Variant → Prop} [DecidablePred P] : Decidable (∀ v, P v) :=
  decidable_of_iff (P plain ∧ P optional ∧ P maybe)
    ⟨fun ⟨hplain, hoptional, hmaybe⟩ v => by cases v <;> assumption,
      fun h => ⟨h plain, h optional, h maybe⟩⟩

/-- What identifiers of the variant start with. -/
def mark : Variant → String
  | plain => ""
  | optional => "optional."
  | maybe => "maybe."

/-- The variant of a type of a family. -/
def apply (f : Family) (ty : Ty) : Variant → Ty
  | plain => ty
  | optional => .sum f.nilType ty {}
  | maybe => ty.toMaybe

end Variant

namespace Family

/-- The labels of the families that check or convert. -/
def labels : List String :=
  ["strict", "coercible", "params", "json"]

/-- The identifiers of types for a class, in families and on their own. -/
inductive Named : String → Variant → Primitive → Prop
  | strict {p : Primitive} (h : p ≠ .any) : Named p.name .plain p
  | member {label : String} (h : label ∈ labels) (variant : Variant) (p : Primitive) :
    Named (variant.mark ++ label ++ "." ++ p.name) variant p

theorem dotted_inj_toList {stem stem' name name' : List Char} (hname : '.' ∉ name)
    (hname' : '.' ∉ name') (h : stem ++ '.' :: name = stem' ++ '.' :: name') :
    stem = stem' ∧ name = name' := by
  -- Whatever one stem is longer by would have a dot in what follows the other one.
  have hlonger : ∀ {middle name name' : List Char}, '.' ∉ name →
      '.' :: name = middle ++ '.' :: name' → middle = [] ∧ name = name' := by
    intro middle name name' hname h
    cases middle with
    | nil => exact ⟨rfl, (List.cons.inj h).2⟩
    | cons c cs =>
      have hrest := (List.cons.inj h).2
      rw [hrest] at hname
      exact absurd (List.mem_append_right cs List.mem_cons_self) hname
  rcases List.append_eq_append_iff.mp h with ⟨middle, hstem, hrest⟩ | ⟨middle, hstem, hrest⟩
  · obtain ⟨rfl, heq⟩ := hlonger hname hrest
    rw [List.append_nil] at hstem
    exact ⟨hstem.symm, heq⟩
  · obtain ⟨rfl, heq⟩ := hlonger hname' hrest
    rw [List.append_nil] at hstem
    exact ⟨hstem, heq.symm⟩

/-- The last dot of an identifier stands before the name of a class. -/
theorem dotted_inj {stem stem' : String} {p q : Primitive}
    (h : stem ++ "." ++ p.name = stem' ++ "." ++ q.name) : stem = stem' ∧ p = q := by
  have hchars : stem.toList ++ '.' :: p.name.toList = stem'.toList ++ '.' :: q.name.toList := by
    simpa using congrArg String.toList h
  obtain ⟨hstem, hname⟩ := dotted_inj_toList p.noDot_name q.noDot_name hchars
  exact ⟨String.toList_inj.mp hstem, Primitive.name_inj (String.toList_inj.mp hname)⟩

theorem dotted_ne_name {stem : String} {p q : Primitive} : stem ++ "." ++ p.name ≠ q.name := by
  intro h
  have hdot : '.' ∈ q.name.toList := by
    rw [← h]
    simp
  exact q.noDot_name hdot

theorem mark_inj : ∀ v v' : Variant, ∀ l ∈ labels, ∀ l' ∈ labels,
    v.mark ++ l = v'.mark ++ l' → v = v' := by
  decide

/-- The variant and the class can be told from an identifier. -/
theorem Named.unique {identifier : String} {variant variant' : Variant} {p q : Primitive}
    (h : Named identifier variant p) (h' : Named identifier variant' q) :
    variant = variant' ∧ p = q := by
  generalize heq : identifier = other at h'
  cases h with
  | strict hany =>
    cases h' with
    | strict _ => exact ⟨rfl, Primitive.name_inj heq⟩
    | member => exact absurd heq.symm dotted_ne_name
  | member hlabel =>
    cases h' with
    | strict _ => exact absurd heq dotted_ne_name
    | member hlabel' =>
      obtain ⟨hstem, hclass⟩ := dotted_inj heq
      exact ⟨mark_inj _ _ _ hlabel _ hlabel' hstem, hclass⟩

/-- A type settles on its class, and may stand behind a type for nil: what it gives is not taken for
nil unless the value that it was made of is. -/
structure Fits (scope : Scope) (nilType : Ty) (t : Primitive × Ty) : Prop where
  ne_any : t.1 ≠ .any
  settles : t.2.Settles scope fun v => t.1.admits v = true
  apart : t.1 ≠ .nil → ∀ x v, t.2.Attempts scope x (.success v) → nilType.Takes scope v →
    nilType.Takes scope x

abbrev Settled (scope : Scope) (f : Family) : Prop :=
  ∀ t ∈ f.types, Fits scope f.nilType t

section

variable {scope : Scope} {nilType : Ty} {p : Primitive} {v : Value}

variable {f : Family}

end

end Family

namespace FamilyOptions

variable {options : FamilyOptions}

end FamilyOptions

namespace Registry

end Registry

end Conform
