import Conform.Proofs.Ty.Refinement
import Conform.Proofs.Value.Hash
import Conform.Proofs.Value.Legible

/-!
Hashes of the same entries in another order. Map types and schemas sort entries by the texts of
their keys, so the order does not matter if these differ; keys of one text stay as the hash
iterates. A schema lists undeclared keys from a hash of its own, which may iterate in any order.
-/

namespace Conform

/-- Two outcomes say the same, and hand equal values back. -/
def Outcome.Alike (o o' : Outcome) : Prop :=
  o.error? = o'.error? ∧ (o.input == o'.input) = true

theorem Outcome.Alike.refl (o : Outcome) : o.Alike o :=
  ⟨rfl, BEq.refl _⟩

namespace Entries

section

variable {scope : Scope} {es fs : Entries}

end

end Entries

end Conform
