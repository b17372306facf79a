import Conform.Binary64.Rounding

namespace Conform.Binary64

def digitsValue (cs : List Char) : Nat :=
  cs.foldl (fun n c => 10 * n + (c.toNat - 48)) 0

/-- An exponent: a mark, an optional sign and digits up to the end; or nothing. -/
def readExponent? : List Char → Option Int
  | [] => some 0
  | mark :: rest =>
    if mark = 'e' ∨ mark = 'E' then
      match rest with
      | '-' :: digits => whole? digits |>.map (fun n => -(n : Int))
      | '+' :: digits => whole? digits |>.map Int.ofNat
      | digits => whole? digits |>.map Int.ofNat
    else none
where
  whole? (cs : List Char) : Option Nat :=
    if !cs.isEmpty && cs.all Char.isDigit then some (digitsValue cs) else none

/-- An unsigned number: digits with at most one point among, before or after them, then an optional
exponent. -/
def readUnsigned? (negative : Bool) (cs : List Char) : Option Binary64 := do
  let whole := cs.takeWhile Char.isDigit
  let rest := cs.dropWhile Char.isDigit
  let (fraction, rest) :=
    match rest with
    | '.' :: after => (after.takeWhile Char.isDigit, after.dropWhile Char.isDigit)
    | rest => ([], rest)
  let digits := (whole ++ fraction).dropWhile (· = '0')
  if (whole ++ fraction).isEmpty then none
  else
    let exponent ← readExponent? rest
    some (ofDecimal negative (digitsValue digits) digits.length (exponent - fraction.length))

/-- The names of the numbers that are not finite, in either case. -/
def readName? (negative : Bool) (cs : List Char) : Option Binary64 :=
  let name := String.ofList (cs.map Char.toLower)
  if name = "nan" then some (quietNaN negative)
  else if name = "inf" || name = "infinity" then some (infinity negative)
  else none

def read? (cs : List Char) : Option Binary64 :=
  let (negative, rest) :=
    match cs with
    | '-' :: rest => (true, rest)
    | '+' :: rest => (false, rest)
    | rest => (false, rest)
  (readName? negative rest).or (readUnsigned? negative rest)

end Conform.Binary64
