import Conform.Binary64.Basic

namespace Conform

/-- The integer nearest to a quotient; of two equally near ones, the even one. -/
def roundQuotient (num den : Nat) : Nat :=
  let whole := num / den
  let twice := 2 * (num % den)
  if twice < den then whole
  else if den < twice then whole + 1
  else whole + whole % 2

namespace Binary64

/-- The greatest `e` with `2 ^ e ≤ num / den`, for positive numbers. -/
def binaryOrder (num den : Nat) : Int :=
  let guess : Int := (Nat.log2 num : Int) - Nat.log2 den
  if num <<< (-guess).toNat < den <<< guess.toNat then guess - 1 else guess

/-- The number nearest to a quotient of positive integers, with a sign; of two equally near ones,
the one with the even significand. -/
def ofQuotient (negative : Bool) (num den : Nat) : Binary64 :=
  if num = 0 then ofMagnitude negative 0
  else
    let last := max (binaryOrder num den - 52) (-1074)
    let units := roundQuotient (num <<< (-last).toNat) (den <<< last.toNat)
    let magnitude := ((last + 1074).toNat <<< 52) + units
    ofMagnitude negative (min magnitude infinite)

def ofInt (n : Int) : Binary64 :=
  ofQuotient (n < 0) n.natAbs 1

/-- The number nearest to `digits * 10 ^ exponent`, where `digits` has `count` decimal digits. Past
the ends of the range the powers need not be computed. -/
def ofDecimal (negative : Bool) (digits count : Nat) (exponent : Int) : Binary64 :=
  if digits = 0 then ofMagnitude negative 0
  else if 310 < exponent + count then infinity negative
  else if exponent + count < -330 then ofMagnitude negative 0
  else ofQuotient negative (digits * Nat.pow 10 exponent.toNat) (Nat.pow 10 (-exponent).toNat)

def ofBinary32 (word : UInt32) : Binary64 :=
  let negative := 1 <<< 31 ≤ word.toNat
  let magnitude := word.toNat % (1 <<< 31)
  if magnitude < 0xFF <<< 23 then
    let exponent : Int := max (magnitude >>> 23 : Nat) 1 - 150
    let units := if magnitude < 1 <<< 23 then magnitude else (1 <<< 23) + magnitude % (1 <<< 23)
    ofQuotient negative (units <<< exponent.toNat) (1 <<< (-exponent).toNat)
  else if magnitude = 0xFF <<< 23 then infinity negative
  else ofMagnitude negative (infinite + (1 <<< 51) + ((magnitude % (1 <<< 22)) <<< 29))

end Binary64

end Conform
