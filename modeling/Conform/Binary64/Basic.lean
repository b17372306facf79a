namespace Conform

/-- A binary floating point number in the 64 bit interchange format, kept as its word: two numbers
are equal when all their bits are. -/
structure Binary64 where
  bits : UInt64
  deriving DecidableEq, Repr, Inhabited

namespace Binary64

def magnitude (x : Binary64) : Nat :=
  x.bits.toNat % (1 <<< 63)

def isNegative (x : Binary64) : Bool :=
  1 <<< 63 ≤ x.bits.toNat

/-- The least magnitude that is not finite. -/
def infinite : Nat :=
  0x7FF <<< 52

def ofMagnitude (negative : Bool) (magnitude : Nat) : Binary64 :=
  ⟨UInt64.ofNat (if negative then (1 <<< 63) + magnitude else magnitude)⟩

def isNaN (x : Binary64) : Bool :=
  infinite < x.magnitude

def isFinite (x : Binary64) : Bool :=
  x.magnitude < infinite

def infinity (negative : Bool) : Binary64 :=
  ofMagnitude negative infinite

def quietNaN (negative : Bool) : Binary64 :=
  ofMagnitude negative (infinite + (1 <<< 51))

/-- The exponent of the last binary place of a finite magnitude, from -1074 up. -/
def place (magnitude : Nat) : Int :=
  max (magnitude >>> 52 : Nat) 1 - 1075

/-- The integer that a finite magnitude counts in units of its last binary place. -/
def significand (magnitude : Nat) : Nat :=
  if magnitude < 1 <<< 52 then magnitude else (1 <<< 52) + magnitude % (1 <<< 52)

/-- Numbers in order, the two zeros being one. -/
def orderKey (x : Binary64) : Int :=
  if x.isNegative then -(x.magnitude : Int) else x.magnitude

/-- The order of two numbers; not-a-number has none. -/
def compare? (x y : Binary64) : Option Ordering :=
  if x.isNaN || y.isNaN then none else some (compare x.orderKey y.orderKey)

def truncate? (x : Binary64) : Option Int :=
  if x.isFinite then
    let whole : Nat :=
      match place x.magnitude with
      | .ofNat e => significand x.magnitude <<< e
      | .negSucc e => significand x.magnitude >>> (e + 1)
    some (if x.isNegative then -(whole : Int) else whole)
  else none

end Binary64

end Conform
