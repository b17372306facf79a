namespace Conform.Text

/-- The lower case hexadecimal digits of a number. -/
def hex (n : Nat) : String :=
  String.ofList (Nat.toDigits 16 n)

/-- A number in decimal, with zeros in front up to the given width. -/
def padded (width n : Nat) : String :=
  let digits := Nat.toDigits 10 n
  String.ofList (List.replicate (width - digits.length) '0' ++ digits)

/-- Bytes, two digits each. -/
def hexBytes (bytes : List UInt8) : String :=
  String.join (bytes.map fun b => hex (b.toNat / 16) ++ hex (b.toNat % 16))

/-- The value of a lower case hexadecimal digit. -/
def hexDigit? (c : Char) : Option Nat :=
  if c.isDigit then some (c.toNat - 48)
  else if 'a' ≤ c ∧ c ≤ 'f' then some (c.toNat - 87)
  else none

def hexPairs? : List Char → Option (List UInt8)
  | [] => some []
  | high :: low :: rest => do
    let high ← hexDigit? high
    let low ← hexDigit? low
    return UInt8.ofNat (16 * high + low) :: (← hexPairs? rest)
  | [_] => none

/-- The bytes that pairs of digits stand for. -/
def ofHex? (s : String) : Option (List UInt8) :=
  hexPairs? s.toList

end Conform.Text
