import Conform.Proofs.Ty.Acceptance
import Conform.Proofs.Ty.Builders

/-!
What is left of a type without its constraints is a normal form: nothing in it is a constraint, an
enum or a lax type, and all metadata are where they were. So a lax type knows nothing of constraints
that were added before.
-/

namespace Conform

mutual

/-- The metadata in a type, at every depth, from the outside in. -/
def Ty.allNotes : Ty → List Metadata
  | .nominal _ info => [info]
  | .constrained inner _ _ | .converted inner _ | .defaulted inner _ | .enum inner _ | .safe inner
  | .lax inner | .maybe inner => inner.allNotes
  | .sum left right info => info :: (left.allNotes ++ right.allNotes)
  | .array member info => info :: member.allNotes
  | .map key value info => info :: (key.allNotes ++ value.allNotes)
  | .schema s => s.info :: keyNotes s.keys
  | .reference r => [r.info]

def keyNotes : List (Key Ty) → List Metadata
  | [] => []
  | k :: ks => k.type.allNotes ++ keyNotes ks

end

namespace Ty

/-- What is no constraint of any kind. -/
def PlainNode : Ty → Prop
  | constrained _ _ _ | enum _ _ | lax _ => False
  | _ => True

/-- There is no constraint, enum or lax type at any depth; what references stand for is not looked
at. -/
abbrev Plain (ty : Ty) : Prop :=
  ty.Everywhere PlainNode

/-- Types that are put together layer by layer. What a lax type is put around loses its constraints,
and the keys of a schema are declared one after the other; all else is taken as it is given. -/
inductive Constructed : Ty → Prop
  | nominal (p : Primitive) (info : Metadata) : Constructed (nominal p info)
  | constrained {inner : Ty} (h : Constructed inner) (rule : Rule) (set : PredicateSet) :
    Constructed (constrained inner rule set)
  | converted {inner : Ty} (h : Constructed inner) (functions : List Func) :
    Constructed (converted inner functions)
  | sum {left right : Ty} (hl : Constructed left) (hr : Constructed right) (info : Metadata) :
    Constructed (sum left right info)
  | defaulted {inner : Ty} (h : Constructed inner) (value : Fallback Func) :
    Constructed (defaulted inner value)
  | enum {inner : Ty} (h : Constructed inner) (values : List Value) :
    Constructed (enum inner values)
  | array {member : Ty} (h : Constructed member) (info : Metadata) :
    Constructed (array member info)
  | map {key value : Ty} (hk : Constructed key) (hv : Constructed value) (info : Metadata) :
    Constructed (map key value info)
  | schema {keys : List (Key Ty)} (h : ∀ k ∈ keys, Constructed k.type)
    (strict alwaysDefaults : Bool) (transform : KeyTransform Func) (info : Metadata) :
    Constructed (schema { keys := (Schema.ofKeys keys : Schema Ty Func).keys, strict,
                          alwaysDefaults, transform, info })
  | safe {inner : Ty} (h : Constructed inner) : Constructed (safe inner)
  | lax {inner : Ty} (h : Constructed inner) : Constructed (lax inner.strip)
  | maybe {inner : Ty} (h : Constructed inner) : Constructed (maybe inner)
  | reference (r : Reference) : Constructed (reference r)

section

variable {ty : Ty}

theorem Constructed.regular (h : ty.Constructed) : ty.Regular := by
  induction h with
  | nominal | reference => trivial
  | schema _ _ _ _ _ ih =>
    have hkeys := regular_ofKeys _ ih
    rw [regular_schema_iff] at hkeys ⊢
    exact hkeys
  | lax _ ih => exact ⟨ih.strip_strip, ih.strip⟩
  | sum _ _ _ ihl ihr | map _ _ _ ihl ihr => exact ⟨trivial, ihl, ihr⟩
  | constrained _ _ _ ih | converted _ _ ih | defaulted _ _ ih | enum _ _ ih | array _ _ ih
  | safe _ ih | maybe _ ih => exact ⟨trivial, ih⟩

/-- The regular types are those that can be put together. -/
theorem constructed_iff_regular : ty.Constructed ↔ ty.Regular := by
  refine ⟨Constructed.regular, fun h => ?_⟩
  induction ty with
  | nominal p info => exact .nominal p info
  | constrained inner rule set ih => exact .constrained (ih h.2) rule set
  | converted inner functions ih => exact .converted (ih h.2) functions
  | sum left right info ihl ihr => exact .sum (ihl h.2.1) (ihr h.2.2) info
  | defaulted inner value ih => exact .defaulted (ih h.2) value
  | enum inner values ih => exact .enum (ih h.2) values
  | array member info ih => exact .array (ih h.2) info
  | map key value info ihk ihv => exact .map (ihk h.2.1) (ihv h.2.2) info
  | schema s ih =>
    obtain ⟨hnames, hkeys⟩ := regular_schema_iff.mp h
    have hs := Constructed.schema (fun k hk => ih k hk (hkeys k hk)) s.strict s.alwaysDefaults
      s.transform s.info
    rwa [Schema.ofKeys_keys hnames] at hs
  | safe inner ih => exact .safe (ih h.2)
  | lax inner ih =>
    have hstripped : inner.strip = inner := h.1
    have hlax := Constructed.lax (ih h.2)
    rwa [hstripped] at hlax
  | maybe inner ih => exact .maybe (ih h.2)
  | reference r => exact .reference r

theorem Constructed.plain_strip (h : ty.Constructed) : ty.strip.Plain := by
  induction h with
  | nominal | reference => trivial
  | constrained _ _ _ ih | enum _ _ ih => exact ih
  | lax _ ih => exact ih
  | schema h _ _ _ _ ih =>
    rw [strip]
    refine ⟨trivial, keysEverywhere_iff.mpr ?_⟩
    simp only [stripKeys_eq_map, List.forall_mem_map]
    intro k hk
    have hmem := (Schema.mem_foldl_putKey hk).resolve_left List.not_mem_nil
    exact ih k hmem
  | sum _ _ _ ihl ihr | map _ _ _ ihl ihr => exact ⟨trivial, ihl, ihr⟩
  | converted _ _ ih | defaulted _ _ ih | array _ _ ih | safe _ ih | maybe _ ih =>
    exact ⟨trivial, ih⟩

theorem keyNotes_eq_flatMap (keys : List (Key Ty)) :
    keyNotes keys = keys.flatMap fun k => k.type.allNotes := by
  induction keys with
  | nil => rfl
  | cons k ks ih => rw [keyNotes, ih, List.flatMap_cons]

/-- Metadata are on no layer that is removed. -/
theorem allNotes_strip (ty : Ty) : ty.strip.allNotes = ty.allNotes := by
  induction ty with
  | schema s ih =>
    have hkeys : keyNotes (stripKeys s.keys) = keyNotes s.keys := by
      rw [keyNotes_eq_flatMap, keyNotes_eq_flatMap, stripKeys_eq_map, List.flatMap_map]
      exact List.flatMap_congr ih
    simp only [strip, allNotes, hkeys]
  | _ => simp_all [strip, allNotes]

theorem toLax_eq_lax_strip (ty : Ty) : ty.toLax = lax ty.strip := by
  cases ty <;> rfl

section

variable {scope : Scope} {fuel : Nat} {t : Ty}

/-- Wherever constraints are put, they are removed again. -/
theorem strip_constrain {options : List (String × Value)} {given : Option PredicateSet}
    (ht : ty.constrain scope fuel options given = .ok (.ok t)) : t.strip = ty.strip := by
  have hwrap : ∀ {ty t : Ty}, constrain.wrap options given ty = .ok t → t.strip = ty.strip := by
    intro ty t ht
    obtain ⟨rule, -, rfl⟩ := map_eq_ok.mp ht
    rfl
  induction ty generalizing t with
  | constrained inner rule set _ =>
    obtain ⟨added, -, rfl⟩ := map_eq_ok.mp (Except.ok.inj ht)
    rfl
  | sum left right info _ ihr =>
    obtain ⟨p, -, ht⟩ := bind_eq_ok.mp ht
    by_cases hnil : p = .nil
    · rw [if_pos hnil] at ht
      obtain ⟨r, hr, ht⟩ := bind_eq_ok.mp ht
      obtain ⟨u, rfl, rfl⟩ := map_eq_ok.mp (pure_eq_ok.mp ht)
      simp only [strip, ihr hr]
    · rw [if_neg hnil] at ht
      exact hwrap (pure_eq_ok.mp ht)
  | defaulted inner _ ih | maybe inner ih =>
    obtain ⟨r, hr, ht⟩ := bind_eq_ok.mp ht
    obtain ⟨u, rfl, rfl⟩ := map_eq_ok.mp (pure_eq_ok.mp ht)
    simp only [strip, ih hr]
  | _ => exact hwrap (Except.ok.inj ht)

theorem strip_enumeration {values : List Value}
    (ht : ty.enumeration scope fuel values = .ok (.ok t)) : t.strip = ty.strip := by
  obtain ⟨u, hu, rfl⟩ := enumeration_eq_ok ht
  show u.strip = ty.strip
  exact strip_constrain hu

end

/-- Removing constraints leaves none at any depth, so that there are none to remove again, and keeps
all metadata. A type that is lax cannot become more so, nor safe; and it has forgotten all that its
type was constrained to. -/
theorem Constructed.strip_normal (h : ty.Constructed) :
    ty.strip.Plain ∧ ty.strip.strip = ty.strip ∧ ty.strip.allNotes = ty.allNotes ∧
    ty.toLax.toLax = ty.toLax ∧ ty.toLax.toSafe = ty.toLax ∧ ty.toSafe.toSafe = ty.toSafe ∧
    (∀ scope fuel options given t, ty.constrain scope fuel options given = .ok (.ok t) →
      t.toLax = ty.toLax) ∧
    ∀ scope fuel values t, ty.enumeration scope fuel values = .ok (.ok t) →
      t.toLax = ty.toLax := by
  have hlax : ∀ t : Ty, t.strip = ty.strip → t.toLax = ty.toLax := by
    intro t ht
    rw [toLax_eq_lax_strip, toLax_eq_lax_strip, ht]
  have hsafe : ty.toSafe.toSafe = ty.toSafe := by
    cases ty <;> rfl
  refine ⟨h.plain_strip, h.regular.strip_strip, allNotes_strip ty, ?_, ?_, hsafe, ?_, ?_⟩
  · rw [toLax_eq_lax_strip ty]
    rfl
  · rw [toLax_eq_lax_strip ty]
    rfl
  · intro scope fuel options given t ht
    exact hlax t (strip_constrain ht)
  · intro scope fuel values t ht
    exact hlax t (strip_enumeration ht)

end

/-- Marks are letters, or numbers that are taken as they are; at least one is given. -/
def marks : Ty :=
  constrained
    (array
      (sum
        (enum (constrained (nominal .string {}) (.and (classRule .string)
          (.predicate ⟨"included_in?", [.array [.string "a", .string "b"]]⟩)) Standard.predicates)
          [.string "a", .string "b"])
        (lax (nominal .int {})) {}) (.ofList [("title", .string "marks")]))
    (.predicate ⟨"min_size?", [.int 1]⟩) Standard.predicates

theorem constructed_marks : marks.Constructed :=
  .constrained (.array (.sum (.enum (.constrained (.nominal .string {}) _ _) _)
    (.lax (.nominal .int {})) {}) _) _ _

theorem strip_normal_marks :
    marks.Constructed ∧
    marks.strip = array (sum (nominal .string {}) (nominal .int {}) {})
      (.ofList [("title", .string "marks")]) ∧
    marks.strip.Plain ∧
    (∃ t, marks.constrain chainScope 5 [("max_size", .int 3)] none = .ok (.ok t) ∧
      t.toLax = marks.toLax) ∧
    ∃ t, marks.enumeration chainScope 5 [.array [.string "a"]] = .ok (.ok t) ∧
      t.toLax = marks.toLax := by
  obtain ⟨hplain, -, -, -, -, -, hconstrain, henum⟩ := constructed_marks.strip_normal
  have hc : ∃ t, marks.constrain chainScope 5 [("max_size", .int 3)] none = .ok (.ok t) := ⟨_, rfl⟩
  have he : ∃ t, marks.enumeration chainScope 5 [.array [.string "a"]] = .ok (.ok t) := ⟨_, rfl⟩
  obtain ⟨t, ht⟩ := hc
  obtain ⟨u, hu⟩ := he
  exact ⟨constructed_marks, rfl, hplain, ⟨t, ht, hconstrain _ _ _ _ t ht⟩, u, hu,
    henum _ _ _ u hu⟩

end Ty

end Conform
