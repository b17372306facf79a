import Conform.Calendar.Moment
import Conform.Calendar.Scan

namespace Conform.Calendar

/-- A part of a written date or time. -/
inductive Part where
  | blank
  | text (expected : String)
  | year
  | month
  | day
  | hour
  | minute
  | second
  | monthName
  | shortMonthName
  | fraction
  | offset
  deriving DecidableEq, Repr

/-- What the parts of a text say. -/
structure Fields where
  year : Int := 0
  month : Nat := 0
  day : Nat := 0
  hour : Nat := 0
  minute : Nat := 0
  second : Nat := 0
  nano : Nat := 0
  offset : Int := 0
  deriving Repr

/-- Numbers, names aside, may have blanks before them. -/
def Part.read (part : Part) (fields : Fields) (cs : List Char) : Option (Fields × List Char) :=
  let short := number 1 2 (Unicode.trimLeft cs)
  match part with
  | .blank => some (fields, Unicode.trimLeft cs)
  | .text expected => (literal expected.toList cs).map fun (_, rest) => (fields, rest)
  | .year => (Calendar.year (Unicode.trimLeft cs)).map
      fun (n, rest) => ({ fields with year := n }, rest)
  | .month => short.map fun (n, rest) => ({ fields with month := n }, rest)
  | .day => short.map fun (n, rest) => ({ fields with day := n }, rest)
  | .hour => short.map fun (n, rest) => ({ fields with hour := n }, rest)
  | .minute => short.map fun (n, rest) => ({ fields with minute := n }, rest)
  | .second => short.map fun (n, rest) => ({ fields with second := n }, rest)
  | .monthName => (longMonth cs).map fun (n, rest) => ({ fields with month := n }, rest)
  | .shortMonthName => (shortMonth cs).map fun (n, rest) => ({ fields with month := n }, rest)
  | .fraction => (Calendar.fraction cs).map fun (n, rest) => ({ fields with nano := n }, rest)
  | .offset => (signedOffset looseColon (Unicode.trimLeft cs)).map
      fun (n, rest) => ({ fields with offset := n }, rest)

def readParts : List Part → Fields → List Char → Option (Fields × List Char)
  | [], fields, cs => some (fields, cs)
  | part :: parts, fields, cs =>
    (part.read fields cs).bind fun (fields, rest) => readParts parts fields rest

def readAll (parts : List Part) (cs : List Char) : Option Fields :=
  match readParts parts {} cs with
  | some (fields, []) => some fields
  | _ => none

namespace Fields

def date? (f : Fields) : Option Date :=
  Date.of? f.year f.month f.day

/-- Second 60 is the inserted second after the 59th of its minute. -/
def moment? (f : Fields) : Option Moment := do
  let date ← f.date?
  if f.hour < 24 ∧ f.minute < 60 ∧ f.second ≤ 60 then
    let inserted := f.second = 60
    Moment.of? date (f.hour * 3600 + f.minute * 60 + (if inserted then 59 else f.second))
      (f.nano + (if inserted then 1000000000 else 0)) f.offset
  else none

end Fields

end Conform.Calendar
