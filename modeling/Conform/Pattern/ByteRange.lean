import Conform.CharSet.Basic

namespace Conform.Pattern

abbrev ByteRange := Nat × Nat

def utf8 (n : Nat) : List Nat :=
  if n < 0x80 then [n]
  else if n < 0x800 then [0xC0 + n / 64, 0x80 + n % 64]
  else if n < 0x10000 then [0xE0 + n / 4096, 0x80 + n / 64 % 64, 0x80 + n % 64]
  else [0xF0 + n / 262144, 0x80 + n / 4096 % 64, 0x80 + n / 64 % 64, 0x80 + n % 64]

def lastOfLength : List Nat := [0x7F, 0x7FF, 0xFFFF]

/-- Where a range has to be split so that its texts are the products of ranges of bytes: where the
length changes, else before and after the blocks of code points that are not in it as a whole. -/
def splitPoint? (first last : Nat) : Option Nat :=
  ((lastOfLength.find? fun n => first ≤ n && n < last).or
    (if last < 0x80 then none
    else [64, 4096, 262144].findSome? fun block =>
      if first / block = last / block then none
      else if first % block ≠ 0 then some ((first / block + 1) * block - 1)
      else if last % block ≠ block - 1 then some (last / block * block - 1)
      else none))

/-- A range of code points as products of ranges of bytes, in order. -/
def byteProducts (first last : Nat) : List (List ByteRange) :=
  match splitPoint? first last with
  | some n =>
    if first ≤ n ∧ n < last then byteProducts first n ++ byteProducts (n + 1) last else []
  | none => [(utf8 first).zip (utf8 last)]
termination_by last - first

def setProducts (s : CharSet) : List (List ByteRange) :=
  s.ranges.toList.flatMap fun (first, last) =>
    if first < 0xE000 ∧ 0xD7FF < last then byteProducts first 0xD7FF ++ byteProducts 0xE000 last
    else byteProducts first last

end Conform.Pattern
