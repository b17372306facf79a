import Conform.Calendar.Date

namespace Conform

/-- The days of the universal calendar. -/
def firstDay : Int := Date.daysBeforeYear firstYear

def lastDay : Int := Date.daysBeforeYear (lastYear + 1) - 1

/-- A date and a time of day as clocks show it at an offset, in seconds, from universal time. A
second that is inserted at the end of a minute is written as nanoseconds past the 59th one. -/
structure Moment where
  date : Date
  second : Nat
  nano : Nat
  offset : Int
  second_lt : second < 86400 := by decide
  nano_lt : nano < (if second % 60 = 59 then 2000000000 else 1000000000) := by decide
  offset_mem : -86400 < offset ∧ offset < 86400 := by decide
  day_mem : firstDay ≤ (date.dayNumber * 86400 + second - offset) / 86400 ∧
    (date.dayNumber * 86400 + second - offset) / 86400 ≤ lastDay := by decide
  deriving DecidableEq, Repr

namespace Moment

def of? (date : Date) (second nano : Nat) (offset : Int) : Option Moment :=
  if hs : second < 86400 then
    if hn : nano < (if second % 60 = 59 then 2000000000 else 1000000000) then
      if ho : -86400 < offset ∧ offset < 86400 then
        if hd : firstDay ≤ (date.dayNumber * 86400 + second - offset) / 86400 ∧
            (date.dayNumber * 86400 + second - offset) / 86400 ≤ lastDay then
          some ⟨date, second, nano, offset, hs, hn, ho, hd⟩
        else none
      else none
    else none
  else none

def universal (m : Moment) : Int :=
  m.date.dayNumber * 86400 + m.second - m.offset

/-- Is the offset in whole minutes, so that texts tell it? -/
def onMinute (m : Moment) : Bool :=
  m.offset % 60 = 0

def same (x y : Moment) : Bool :=
  x.universal = y.universal && x.nano = y.nano

def compare (x y : Moment) : Ordering :=
  (Ord.compare x.universal y.universal).then (Ord.compare x.nano y.nano)

/-- A fraction of a second in as few groups of three digits as hold it. -/
def fractionText (nano : Nat) : String :=
  if nano = 0 then ""
  else if nano % 1000000 = 0 then "." ++ Text.padded 3 (nano / 1000000)
  else if nano % 1000 = 0 then "." ++ Text.padded 6 (nano / 1000)
  else "." ++ Text.padded 9 nano

/-- The minutes of an offset, to the nearest one. -/
def minutes (offset : Int) : Nat :=
  (offset.natAbs + 30) / 60

def offsetText (offset : Int) : String :=
  (if offset < 0 then "-" else "+") ++ Text.padded 2 (minutes offset / 60) ++ ":" ++
    Text.padded 2 (minutes offset % 60)

/-- Date and time of day; an inserted second has number 60. -/
def localText (m : Moment) : String :=
  m.date.text ++ "T" ++ Text.padded 2 (m.second / 3600) ++ ":" ++
    Text.padded 2 (m.second / 60 % 60) ++ ":" ++
    Text.padded 2 (m.second % 60 + m.nano / 1000000000) ++ fractionText (m.nano % 1000000000)

/-- The text of a moment, offset included. -/
def text (m : Moment) : String :=
  m.localText ++ offsetText m.offset

def shortText (m : Moment) : String :=
  m.localText ++ (if m.offset = 0 then "Z" else offsetText m.offset)

end Moment

/-- The first moment of a day of universal time. -/
def Date.midnight? (d : Date) : Option Moment :=
  Moment.of? d 0 0 0

end Conform
