import Conform.Proofs.Binary64.Neighborhood

/-!
The fewest digits of a number round to it. The search for them starts on a grid that is coarse
enough and comes to one that is fine enough.
-/

namespace Conform.Binary64

namespace Neighborhood

variable {n : Neighborhood} {e : ℤ}

end Neighborhood

section

variable {m : ℕ}

end

end Conform.Binary64
