import Conform.Binary64.Basic

namespace Conform.Binary64

/-- The reals that round to a finite positive magnitude, as three integers over one denominator: the
lower end, the number itself and the upper end. The ends belong to it when `closed`. -/
structure Neighborhood where
  lower : Nat
  value : Nat
  upper : Nat
  den : Nat
  closed : Bool

def neighborhood (magnitude : Nat) : Neighborhood :=
  let units := significand magnitude
  let quarter := place magnitude - 2
  let below := if units = 1 <<< 52 ∧ 1 <<< 53 ≤ magnitude then 1 else 2
  { lower := (4 * units - below) <<< quarter.toNat
    value := (4 * units) <<< quarter.toNat
    upper := (4 * units + 2) <<< quarter.toNat
    den := 1 <<< (-quarter).toNat
    closed := units % 2 = 0 }

namespace Neighborhood

/-- Does `num / den` round to the number? -/
def holds (n : Neighborhood) (num den : Nat) : Bool :=
  let low := n.lower * den
  let mid := num * n.den
  let high := n.upper * den
  if n.closed then low ≤ mid && mid ≤ high else low < mid && mid < high

/-- The point of the grid of step `10 ^ exponent` that is nearest to the number among those that
round to it; of two equally near ones, the greater. -/
def onGrid? (n : Neighborhood) (exponent : Int) : Option Nat :=
  let up := Nat.pow 10 exponent.toNat
  let down := Nat.pow 10 (-exponent).toNat
  let step := n.den * up
  let point := n.value * down / step
  let rest := n.value * down % step
  let low := n.holds (point * up) down
  let high := n.holds ((point + 1) * up) down
  if low && (!high || 2 * rest < step) then some point
  else if high then some (point + 1)
  else none

/-- The first grid with a point, taken from the coarsest on. -/
def search (n : Neighborhood) : Nat → Int → Nat × Int
  | 0, exponent =>
    (n.value * Nat.pow 10 (-exponent).toNat / (n.den * Nat.pow 10 exponent.toNat), exponent)
  | fuel + 1, exponent =>
    match n.onGrid? exponent with
    | some point => (point, exponent)
    | none => search n fuel (exponent - 1)

end Neighborhood

/-- The greatest `e` with `10 ^ e ≤ num / den`, found from `start`, which is no greater, in at most
`fuel` steps. -/
def decimalOrder (num den : Nat) : Nat → Int → Int
  | 0, e => e
  | fuel + 1, e =>
    if num * Nat.pow 10 (-(e + 1)).toNat < den * Nat.pow 10 (e + 1).toNat then e
    else decimalOrder num den fuel (e + 1)

/-- The fewest decimal digits that read back as a finite positive magnitude, as an integer without a
zero at its end and a power of ten. -/
def shortest (magnitude : Nat) : Nat × Int :=
  let n := neighborhood magnitude
  let binary : Int := (Nat.log2 n.value : Int) - Nat.log2 n.den
  let order := decimalOrder n.value n.den 8 ((binary - 1) * 30103 / 100000 - 1)
  dropZeros 400 (n.search 20 (order + 1))
where
  dropZeros : Nat → Nat × Int → Nat × Int
    | 0, r => r
    | fuel + 1, (digits, exponent) =>
      if digits ≠ 0 ∧ digits % 10 = 0 then dropZeros fuel (digits / 10, exponent + 1)
      else (digits, exponent)

end Conform.Binary64
