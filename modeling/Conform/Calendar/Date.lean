import Conform.Text.Hex

namespace Conform

/-- A year is leap when 4 divides it, but of the centuries only when 400 does. -/
def isLeapYear (year : Int) : Bool :=
  year % 4 = 0 && (year % 100 ≠ 0 || year % 400 = 0)

/-- The number of days of a month, none for what is not a month. -/
def daysInMonth (year : Int) (month : Nat) : Nat :=
  if month = 2 then (if isLeapYear year then 29 else 28)
  else if month = 4 ∨ month = 6 ∨ month = 9 ∨ month = 11 then 30
  else if 1 ≤ month ∧ month ≤ 12 then 31
  else 0

def firstYear : Int := -262143

def lastYear : Int := 262142

/-- A day of the Gregorian calendar, extended to all years in range. -/
structure Date where
  year : Int
  month : Nat
  day : Nat
  year_mem : firstYear ≤ year ∧ year ≤ lastYear := by decide
  day_mem : 1 ≤ day ∧ day ≤ daysInMonth year month := by decide
  deriving DecidableEq, Repr

namespace Date

def of? (year : Int) (month day : Nat) : Option Date :=
  if hy : firstYear ≤ year ∧ year ≤ lastYear then
    if hd : 1 ≤ day ∧ day ≤ daysInMonth year month then some ⟨year, month, day, hy, hd⟩
    else none
  else none

def daysBeforeMonth (year : Int) (month : Nat) : Nat :=
  (List.range month).foldl (fun days m => days + daysInMonth year m) 0

/-- The days before a year, counted from the start of year 0. -/
def daysBeforeYear (year : Int) : Int :=
  365 * year + (year + 3) / 4 - (year + 99) / 100 + (year + 399) / 400

/-- Days counted from the start of year 0. -/
def dayNumber (d : Date) : Int :=
  daysBeforeYear d.year + daysBeforeMonth d.year d.month + d.day - 1

def compare (x y : Date) : Ordering :=
  (Ord.compare x.year y.year).then ((Ord.compare x.month y.month).then (Ord.compare x.day y.day))

/-- A year has four digits, and a sign when it is not in 0 to 9999. -/
def yearText (year : Int) : String :=
  if 0 ≤ year ∧ year ≤ 9999 then Text.padded 4 year.toNat
  else (if year < 0 then "-" else "+") ++ Text.padded 4 year.natAbs

/-- Year, month and day, joined by hyphens. -/
def text (d : Date) : String :=
  yearText d.year ++ "-" ++ Text.padded 2 d.month ++ "-" ++ Text.padded 2 d.day

end Date

end Conform
