import Conform.Calendar.Layout

namespace Conform.Calendar

def yearMonthDay (separator : String) : List Part :=
  [.year, .text separator, .month, .text separator, .day]

def clock : List Part :=
  [.hour, .text ":", .minute]

def fullClock : List Part :=
  clock ++ [.text ":", .second, .fraction]

/-- How dates may be written. -/
def dateLayouts : List (List Part) :=
  [yearMonthDay "-",
   yearMonthDay "/",
   [.day, .blank, .monthName, .blank, .year],
   [.monthName, .blank, .day, .text ",", .blank, .year],
   [.day, .blank, .shortMonthName, .blank, .year]]

/-- How moments without an offset may be written. -/
def localLayouts : List (List Part) :=
  [yearMonthDay "-" ++ [.text "T"] ++ fullClock,
   yearMonthDay "-" ++ [.blank] ++ fullClock,
   yearMonthDay "-" ++ [.text "T"] ++ clock,
   yearMonthDay "-" ++ [.blank] ++ clock]

/-- How moments with an offset may be written, besides the strict form. -/
def offsetLayouts : List (List Part) :=
  [yearMonthDay "-" ++ [.blank] ++ fullClock ++ [.blank, .offset],
   yearMonthDay "-" ++ [.blank] ++ fullClock ++ [.offset]]

/-- The mark between date and time. -/
def dateTimeMark : Reader Unit
  | c :: cs => if c = 'T' ∨ c = 't' ∨ c = ' ' then some ((), cs) else none
  | [] => none

/-- The strict form of a moment: all numbers have their full width and the offset is given. -/
def strict? (cs : List Char) : Option Moment := do
  let (year, cs) ← number 4 4 cs
  let ((), cs) ← literal ['-'] cs
  let (month, cs) ← number 2 2 cs
  let ((), cs) ← literal ['-'] cs
  let (day, cs) ← number 2 2 cs
  let ((), cs) ← dateTimeMark cs
  let (hour, cs) ← number 2 2 cs
  let ((), cs) ← colon cs
  let (minute, cs) ← number 2 2 cs
  let ((), cs) ← colon cs
  let (second, cs) ← number 2 2 cs
  let (nano, cs) ← fraction cs
  let (offset, cs) ← offsetOrZulu colon cs
  if cs.isEmpty then
    Fields.moment? ⟨year, month, day, hour, minute, second, nano, offset⟩
  else none

def dateLayout? (cs : List Char) : Option Date :=
  dateLayouts.findSome? fun parts => (readAll parts cs).bind Fields.date?

def momentLayout? (layouts : List (List Part)) (cs : List Char) : Option Moment :=
  layouts.findSome? fun parts => (readAll parts cs).bind Fields.moment?

/-- A moment, in the strict form or one of the layouts; what gives no offset is universal time, and
what gives no time is midnight. -/
def moment? (s : String) : Option Moment :=
  let cs := Unicode.trim s.toList
  (strict? cs).or ((momentLayout? offsetLayouts cs).or
    ((momentLayout? localLayouts cs).or ((dateLayout? cs).bind Date.midnight?)))

/-- A date, or the date of a moment. -/
def date? (s : String) : Option Date :=
  let cs := Unicode.trim s.toList
  (dateLayout? cs).or ((moment? s).map Moment.date)

/-- A date as other programs write it: numbers may have blanks around them. -/
def wireDate? (s : String) : Option Date :=
  (readAll [.year, .blank, .text "-", .month, .blank, .text "-", .day, .blank] s.toList).bind
    Fields.date?

/-- A moment as other programs write it: numbers may be short, with blanks around them, and a name
may stand for universal time. -/
def wireMoment? (s : String) : Option Moment := do
  let (fields, cs) ← readParts
    [.year, .blank, .text "-", .month, .blank, .text "-", .day] {} s.toList
  let ((), cs) ← dateTimeMark cs
  let (fields, cs) ← readParts
    [.hour, .blank, .text ":", .minute, .blank, .text ":", .second, .fraction, .blank] fields cs
  let (offset, cs) ← if startsWithName "utc".toList cs then some (0, cs.drop 3)
    else offsetOrZulu looseColon cs
  let fields := { fields with offset := offset }
  if (Unicode.trimLeft cs).isEmpty then fields.moment? else none

end Conform.Calendar
