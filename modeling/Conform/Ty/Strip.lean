import Conform.Ty.Basic

namespace Conform

mutual

/-- A type without its constraints, at every depth. What a reference stands for is left alone, and a
lax type has had its constraints removed already. -/
def Ty.strip : Ty → Ty
  | .nominal p info => .nominal p info
  | .constrained inner _ _ => inner.strip
  | .converted inner functions => .converted inner.strip functions
  | .sum left right info => .sum left.strip right.strip info
  | .defaulted inner value => .defaulted inner.strip value
  | .enum inner _ => inner.strip
  | .array member info => .array member.strip info
  | .map key value info => .map key.strip value.strip info
  | .schema s => .schema { s with keys := stripKeys s.keys }
  | .safe inner => .safe inner.strip
  | .lax inner => inner
  | .maybe inner => .maybe inner.strip
  | .reference r => .reference r

def stripKeys : List (Key Ty) → List (Key Ty)
  | [] => []
  | k :: ks => { k with type := k.type.strip } :: stripKeys ks

end

namespace Ty

/-- The type as a layer around others, if it is one. -/
def inner? : Ty → Option Ty
  | constrained inner _ _ | converted inner _ | defaulted inner _ | enum inner _
  | safe inner | lax inner | maybe inner => some inner
  | _ => none

/-- The layer around another type; what is no layer gives way to it. -/
def rewrap (ty inner : Ty) : Ty :=
  match ty with
  | constrained _ rule set => constrained inner rule set
  | converted _ functions => converted inner functions
  | defaulted _ value => defaulted inner value
  | enum _ values => enum inner values
  | safe _ => safe inner
  | lax _ => lax inner.strip
  | maybe _ => maybe inner
  | _ => inner

end Ty

end Conform
