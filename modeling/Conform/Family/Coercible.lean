import Conform.Error
import Conform.Numeral.Float
import Conform.Numeral.Integer

/-!
Free conversions: texts are read, numbers become each other, nil becomes an empty collection, and
scalars become arrays.
-/

namespace Conform

/-- A conversion for each of some classes. -/
abbrev Conversions := List (Primitive × (Value → Result Value))

/-- The error of a value that is not of a class that can be converted. -/
def Value.notCoerced (v : Value) (expected : String) : Result Value :=
  .error (.coercion v ("cannot be coerced to " ++ expected))

/-- The integer part of a float, if an integer can hold it. -/
def Binary64.integer? (x : Binary64) : Option Int64 :=
  match x.truncate? with
  | some n =>
    if Int64.minValue.toInt ≤ n ∧ n ≤ Int64.maxValue.toInt then some (Int64.ofInt n) else none
  | none => none

namespace Coercible

/-- The text of a value; that of nil is empty. -/
def string : Value → Result Value
  | .nil => .ok (.string "")
  | .undefined => Value.undefined.notCoerced "a string"
  | v => .ok (.string v.plain)

/-- An integer from a number, or from a literal, which with `bases` may name its base. -/
def integerFrom (bases : Bool) (v : Value) : Result Value :=
  match v with
  | .int n => .ok (.int n)
  | .float x =>
    match x.integer? with
    | some n => .ok (.int n)
    | none => .error (.coercion v "out of integer range")
  | .string s =>
    match Numeral.integer? bases s with
    | some n => .ok (.int n)
    | none => .error (.coercion v "invalid value for integer")
  | v => v.notCoerced "an integer"

def integer : Value → Result Value :=
  integerFrom true

/-- A float from a number or a literal. -/
def float (v : Value) : Result Value :=
  match v with
  | .float x => .ok (.float x)
  | .int n => .ok (.float (Binary64.ofInt n.toInt))
  | .string s =>
    match Numeral.float? s with
    | some x => .ok (.float x)
    | none => .error (.coercion v "invalid value for float")
  | v => v.notCoerced "a float"

def symbol (v : Value) : Result Value :=
  match v.name? with
  | some s => .ok (.symbol s)
  | none => v.notCoerced "a symbol"

/-- A hash becomes an array of pairs, and what is no collection an array of one item. -/
def array : Value → Result Value
  | .array items => .ok (.array items)
  | .nil => .ok (.array [])
  | .hash entries => .ok (.array (entries.map fun e => .array [e.1, e.2]))
  | .undefined => Value.undefined.notCoerced "an array"
  | v => .ok (.array [v])

def hash : Value → Result Value
  | .hash entries => .ok (.hash entries)
  | .nil => .ok (.hash [])
  | .array [] => .ok (.hash [])
  | v => v.notCoerced "a hash"

def conversions : Conversions :=
  [(.string, string), (.int, integer), (.float, float), (.symbol, symbol), (.array, array),
   (.hash, hash)]

end Coercible

end Conform
