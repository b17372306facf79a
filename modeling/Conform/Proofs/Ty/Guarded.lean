import Conform.Proofs.Schema.Undeclared
import Conform.Proofs.Ty.Refinement
import Conform.World

namespace Conform

namespace Rule

/-- A rule that no value outside a class passes. -/
def Excludes (rule : Rule) (set : PredicateSet) (p : Primitive) : Prop :=
  ∀ v, p.admits v = false → (rule.judge set v).holds = false

end Rule

namespace Ty

/-- Conversions whose results are all of one class. -/
def Produces (functions : List Func) (p : Primitive) : Prop :=
  ∀ input v, convert functions input = .ok v → p.admits v = true

/-- Types whose class checks, which only trying makes, are made again by a rule right above them, or
are met by the conversions right above them. The left side of a sum may be any type: it is only
tried. -/
inductive Guarded : Ty → Prop where
  | any (info : Metadata) : Guarded (nominal .any info)
  | checked {p : Primitive} {rule : Rule} {set : PredicateSet} (info : Metadata)
      (he : rule.Excludes set p) : Guarded (constrained (nominal p info) rule set)
  | checkedArray {member : Ty} {rule : Rule} {set : PredicateSet} (info : Metadata)
      (he : rule.Excludes set .array) (hm : member.Guarded) :
      Guarded (constrained (array member info) rule set)
  | produced {p : Primitive} {functions : List Func} (info : Metadata)
      (hp : Produces functions p) : Guarded (converted (nominal p info) functions)
  | constrained {inner : Ty} (rule : Rule) (set : PredicateSet) (hi : inner.Guarded) :
      Guarded (constrained inner rule set)
  | converted {inner : Ty} (functions : List Func) (hi : inner.Guarded) :
      Guarded (converted inner functions)
  | sum (left : Ty) {right : Ty} (info : Metadata) (hr : right.Guarded) :
      Guarded (sum left right info)
  | defaulted {inner : Ty} (value : Fallback Func) (hi : inner.Guarded) :
      Guarded (defaulted inner value)
  | enum {inner : Ty} (values : List Value) (hi : inner.Guarded) : Guarded (enum inner values)
  | map {key value : Ty} (info : Metadata) (hk : key.Guarded) (hv : value.Guarded) :
      Guarded (map key value info)
  | schema {s : Schema Ty Func} (hs : ∀ k ∈ s.keys, k.type.Guarded) : Guarded (schema s)
  | maybe {inner : Ty} (hi : inner.Guarded) : Guarded (maybe inner)

end Ty

namespace Ty

section

variable {scope : Scope} {inner : Ty}

end

/-- Arrays of labels, which are numbers or strings; none where nothing is given. -/
def labels : Ty :=
  defaulted (constrained (array (sum (nominal .int {}) (strict .string) {}) {})
    (classRule .array) Standard.predicates) (.literal (.array []))

end Ty

end Conform
