import Conform.Calendar.Reader
import Conform.Family.Coercible

/-!
Conversions of what forms and queries send. All of it is text, and the empty text stands for nil or
for an empty collection.
-/

namespace Conform.Params

/-- The words for true. -/
def trueWords : List String :=
  ["1", "on", "On", "ON", "t", "true", "True", "TRUE", "T", "y", "yes", "Yes", "YES", "Y"]

/-- The words for false. -/
def falseWords : List String :=
  ["0", "off", "Off", "OFF", "f", "false", "False", "FALSE", "F", "n", "no", "No", "NO", "N"]

def nil : Value → Result Value
  | .nil => .ok .nil
  | .string "" => .ok .nil
  | v => .error (.coercion v "is not nil or an empty string")

def word (v : Value) (text : String) : Result Value :=
  if text ∈ trueWords then .ok (.bool true)
  else if text ∈ falseWords then .ok (.bool false)
  else .error (.coercion v "is not a boolean word")

def bool (v : Value) : Result Value :=
  match v with
  | .bool b => .ok (.bool b)
  | .string s => word v s
  | .int n => word v (ToString.toString n.toInt)
  | v => v.notCoerced "a boolean"

def integer : Value → Result Value :=
  Coercible.integerFrom false

def float : Value → Result Value :=
  Coercible.float

/-- The date of a moment, or a date that is read. -/
def date (v : Value) : Result Value :=
  match v with
  | .date d => .ok (.date d)
  | .dateTime m => .ok (.date m.date)
  | .string s =>
    match Calendar.date? s with
    | some d => .ok (.date d)
    | none => .error (.coercion v "invalid date")
  | v => v.notCoerced "a date"

/-- The first moment of a date, or a moment that is read. -/
def dateTime (v : Value) : Result Value :=
  match v with
  | .dateTime m => .ok (.dateTime m)
  | .date d =>
    match d.midnight? with
    | some m => .ok (.dateTime m)
    | none => .error (.coercion v "invalid date")
  | .string s =>
    match Calendar.moment? s with
    | some m => .ok (.dateTime m)
    | none => .error (.coercion v "invalid date-time")
  | v => v.notCoerced "a date-time"

def array : Value → Result Value
  | .array items => .ok (.array items)
  | .string "" => .ok (.array [])
  | v => v.notCoerced "an array"

def hash : Value → Result Value
  | .hash entries => .ok (.hash entries)
  | .string "" => .ok (.hash [])
  | v => v.notCoerced "a hash"

def conversions : Conversions :=
  [(.nil, nil), (.bool, bool), (.int, integer), (.float, float), (.date, date),
   (.dateTime, dateTime), (.array, array), (.hash, hash)]

end Conform.Params
