import Conform.Binary64.Shortest

namespace Conform.Binary64

/-- Which numbers are written positionally: those from `10 ^ least` up to, but without,
`10 ^ past`. All others have one digit before the point and an exponent. -/
structure Style where
  least : Int
  past : Int

/-- The style of values: positional from `1e-4` up to `1e16`. -/
def valueStyle : Style :=
  ⟨-4, 16⟩

/-- A positional number always has a digit on either side of its point. -/
def positional (digits : List Char) (exponent : Int) : String :=
  match exponent with
  | .ofNat zeros => String.ofList (digits ++ List.replicate zeros '0') ++ ".0"
  | .negSucc places =>
    let places := places + 1
    let full := List.replicate (places + 1 - digits.length) '0' ++ digits
    String.ofList (full.take (full.length - places)) ++ "." ++
      String.ofList (full.drop (full.length - places))

/-- A number with an exponent has a point only if digits follow it. -/
def scientific (digits : List Char) (exponent : Int) : String :=
  match digits with
  | [] => ""
  | first :: rest =>
    first.toString ++ (if rest.isEmpty then "" else "." ++ String.ofList rest) ++ "e" ++
      toString (exponent + rest.length)

def Style.finite (style : Style) (magnitude : Nat) : String :=
  if magnitude = 0 then "0.0"
  else
    let (number, exponent) := shortest magnitude
    let digits := Nat.toDigits 10 number
    let order := exponent + digits.length - 1
    if style.least ≤ order ∧ order < style.past then positional digits exponent
    else scientific digits exponent

def Style.render (style : Style) (x : Binary64) : String :=
  if x.isNaN then "NaN"
  else
    (if x.isNegative then "-" else "") ++
      (if x.isFinite then style.finite x.magnitude else "inf")

def text (x : Binary64) : String :=
  valueStyle.render x

end Conform.Binary64
