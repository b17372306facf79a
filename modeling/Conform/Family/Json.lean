import Conform.Family.Params

/-!
Conversions of what has no form of its own in JSON: dates, moments, symbols, and nil given by an
empty text.
-/

namespace Conform.Json

def nil : Value → Result Value :=
  Params.nil

def date : Value → Result Value :=
  Params.date

def dateTime : Value → Result Value :=
  Params.dateTime

/-- A symbol has at least one character when it is given as a text. -/
def symbol (v : Value) : Result Value :=
  match v with
  | .symbol s => .ok (.symbol s)
  | .string s =>
    if s.isEmpty then .error (.coercion v "an empty string is not a symbol") else .ok (.symbol s)
  | v => v.notCoerced "a symbol"

def conversions : Conversions :=
  [(.nil, nil), (.date, date), (.dateTime, dateTime), (.symbol, symbol)]

/-- The classes that need no conversion. -/
def native : List Primitive :=
  [.string, .int, .float, .bool, .array, .hash]

end Conform.Json
