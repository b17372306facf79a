import Conform.Scope
import Conform.Ty.Strip

namespace Conform.Ty

/-- The class that a type is about in the end. A reference that leads nowhere is about any class,
and so is a sum of two; but next to another type, nil does not count. -/
def primitive (scope : Scope) : Nat → Ty → Run Primitive
  | 0, _ => .error .depth
  | fuel + 1, ty =>
    match ty with
    | nominal p _ => .ok p
    | constrained inner _ _ | converted inner _ | defaulted inner _ | enum inner _
    | safe inner | lax inner | maybe inner => primitive scope fuel inner
    | sum left right _ => do
      let l ← primitive scope fuel left
      let r ← primitive scope fuel right
      return if l = .nil then r else if l = r then l else .any
    | array _ _ => .ok .array
    | map _ _ _ | schema _ => .ok .hash
    | reference r => do
      match ← r.resolve scope fuel with
      | .ok ty => primitive scope fuel ty
      | .error _ => return .any

/-- Is nil accepted by the build of the type: as absent input, or on the left of a sum? -/
def isOptional (scope : Scope) (fuel : Nat) : Ty → Run Bool
  | maybe _ => .ok true
  | sum left _ _ => return (← left.primitive scope fuel) = .nil
  | constrained inner _ _ | converted inner _ | defaulted inner _ | safe inner | lax inner =>
    isOptional scope fuel inner
  | _ => .ok false

def isDefault : Ty → Bool
  | defaulted _ _ => true
  | constrained inner _ _ | converted inner _ | safe inner | lax inner => isDefault inner
  | _ => false

/-- The metadata of a type; of an optional sum, those of its right side. -/
def info (scope : Scope) (fuel : Nat) : Ty → Run Metadata
  | nominal _ info | array _ info | map _ _ info => .ok info
  | schema s => .ok s.info
  | reference r => .ok r.info
  | sum left right info => do
    if (← left.primitive scope fuel) = .nil then right.info scope fuel else return info
  | constrained inner _ _ | converted inner _ | defaulted inner _ | enum inner _
  | safe inner | lax inner | maybe inner => inner.info scope fuel

def mergeInfo (scope : Scope) (fuel : Nat) (other : Metadata) : Ty → Run Ty
  | nominal p info => .ok (nominal p (info.merge other))
  | array member info => .ok (array member (info.merge other))
  | map key value info => .ok (map key value (info.merge other))
  | schema s => .ok (schema { s with info := s.info.merge other })
  | reference r => .ok (reference { r with info := r.info.merge other })
  | sum left right info => do
    if (← left.primitive scope fuel) = .nil then
      return sum left (← right.mergeInfo scope fuel other) info
    else return sum left right (info.merge other)
  | constrained inner rule set =>
    return constrained (← inner.mergeInfo scope fuel other) rule set
  | converted inner functions => return converted (← inner.mergeInfo scope fuel other) functions
  | defaulted inner value => return defaulted (← inner.mergeInfo scope fuel other) value
  | enum inner values => return enum (← inner.mergeInfo scope fuel other) values
  | safe inner => return safe (← inner.mergeInfo scope fuel other)
  | lax inner => return lax (← inner.mergeInfo scope fuel other).strip
  | maybe inner => return maybe (← inner.mergeInfo scope fuel other)

/-- Removes the metadata of a type, but not of members and keys. -/
def withoutInfo : Ty → Ty
  | nominal p _ => nominal p {}
  | array member _ => array member {}
  | map key value _ => map key value {}
  | schema s => schema { s with info := {} }
  | reference r => reference { r with info := {} }
  | sum left right _ => sum left.withoutInfo right.withoutInfo {}
  | constrained inner rule set => constrained inner.withoutInfo rule set
  | converted inner functions => converted inner.withoutInfo functions
  | defaulted inner value => defaulted inner.withoutInfo value
  | enum inner values => enum inner.withoutInfo values
  | safe inner => safe inner.withoutInfo
  | lax inner => lax inner.withoutInfo.strip
  | maybe inner => maybe inner.withoutInfo

/-- The rule of a constrained type; of a sum of two, that one of their rules holds. -/
def rule? : Ty → Option Rule
  | constrained _ rule _ => some rule
  | sum (constrained _ left _) (constrained _ right _) _ => some (.or left right)
  | _ => none

def schema? : Ty → Option (Schema Ty Func)
  | schema s => some s
  | _ => none

end Conform.Ty
