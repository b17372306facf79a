namespace Conform

/-- The classes of values; `any` is the class of all of them. -/
inductive Primitive where
  | any | nil | bool | int | float | string | symbol | date | dateTime | array | hash
  deriving DecidableEq, Repr, Inhabited

namespace Primitive

/-- The classes in their usual order. -/
def all : List Primitive :=
  [.any, .nil, .bool, .int, .float, .string, .symbol, .date, .dateTime, .array, .hash]

/-- The name of a class, in identifiers and messages. -/
def name : Primitive → String
  | .any => "any"
  | .nil => "nil"
  | .bool => "bool"
  | .int => "integer"
  | .float => "float"
  | .string => "string"
  | .symbol => "symbol"
  | .date => "date"
  | .dateTime => "date_time"
  | .array => "array"
  | .hash => "hash"

def ofName? (name : String) : Option Primitive :=
  all.find? fun p => p.name = name

theorem mem_all (p : Primitive) : p ∈ all := by
  cases p <;> decide

theorem ofName?_name (p : Primitive) : ofName? p.name = some p := by
  cases p <;> decide

end Primitive

end Conform
