import Conform.Unicode.Blank

namespace Conform.Numeral

/-- The value of a digit in bases up to 36, letters in either case. -/
def digitValue? (c : Char) : Option Nat :=
  if c.isDigit then some (c.toNat - 48)
  else if c.isLower then some (c.toNat - 87)
  else if c.isUpper then some (c.toNat - 55)
  else none

def splitBase : List Char → Nat × List Char
  | '0' :: mark :: rest =>
    if mark = 'x' ∨ mark = 'X' then (16, rest)
    else if mark = 'o' ∨ mark = 'O' then (8, rest)
    else if mark = 'b' ∨ mark = 'B' then (2, rest)
    else (10, '0' :: mark :: rest)
  | cs => (10, cs)

/-- The value of digits in a base after a number already read; single underscores may stand between
digits. -/
def digitsFrom (base value : Nat) : List Char → Option Nat
  | [] => some value
  | c :: rest =>
    match digitValue? c with
    | some d => if d < base then digitsFrom base (base * value + d) rest else none
    | none =>
      if c = '_' then
        match rest with
        | next :: _ => if next = '_' then none else digitsFrom base value rest
        | [] => none
      else none

def magnitude? (base : Nat) : List Char → Option Nat
  | [] => none
  | c :: rest => if c = '_' then none else digitsFrom base 0 (c :: rest)

/-- The 64 bit integer that a literal with blanks around it stands for: an optional sign, with
`bases` an optional base, and digits. -/
def integer? (bases : Bool) (s : String) : Option Int64 := do
  let (negative, unsigned) :=
    match Unicode.trim s.toList with
    | '-' :: rest => (true, rest)
    | '+' :: rest => (false, rest)
    | rest => (false, rest)
  let (base, digits) := if bases then splitBase unsigned else (10, unsigned)
  let magnitude ← magnitude? base digits
  let value : Int := if negative then -(magnitude : Int) else magnitude
  if Int64.minValue.toInt ≤ value ∧ value ≤ Int64.maxValue.toInt then some (Int64.ofInt value)
  else none

end Conform.Numeral
