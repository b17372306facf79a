import Conform.Binary64.Rounding
import Conform.Calendar.Moment
import Conform.Primitive

namespace Conform

/-- The values that types accept and produce. A missing value is `undefined`, which differs from a
present `nil`. The entries of a hash have different keys; they are listed as the hash iterates,
which has no part in equality. -/
inductive Value where
  | undefined
  | nil
  | bool (b : Bool)
  | int (n : Int64)
  | float (x : Binary64)
  | string (s : String)
  | symbol (s : String)
  | date (d : Date)
  | dateTime (m : Moment)
  | array (items : List Value)
  | hash (entries : List (Value × Value))
  deriving Inhabited, Repr

namespace Value

/-- The class of a value; only `undefined` has none of its own. -/
def primitive : Value → Primitive
  | undefined => .any
  | nil => .nil
  | bool _ => .bool
  | int _ => .int
  | float _ => .float
  | string _ => .string
  | symbol _ => .symbol
  | date _ => .date
  | dateTime _ => .dateTime
  | array _ => .array
  | hash _ => .hash

def isNil : Value → Bool
  | nil => true
  | _ => false

def isUndefined : Value → Bool
  | undefined => true
  | _ => false

/-- Nil and undefined stand for no value. -/
def isAbsent : Value → Bool
  | undefined | nil => true
  | _ => false

def bool? : Value → Option Bool
  | bool b => some b
  | _ => none

def int? : Value → Option Int64
  | int n => some n
  | _ => none

def float? : Value → Option Binary64
  | float x => some x
  | _ => none

/-- A number as a float; integers are rounded. -/
def number? : Value → Option Binary64
  | int n => some (Binary64.ofInt n.toInt)
  | float x => some x
  | _ => none

def string? : Value → Option String
  | string s => some s
  | _ => none

def symbol? : Value → Option String
  | symbol s => some s
  | _ => none

/-- The text of a string or symbol. -/
def name? : Value → Option String
  | string s | symbol s => some s
  | _ => none

def date? : Value → Option Date
  | date d => some d
  | _ => none

def dateTime? : Value → Option Moment
  | dateTime m => some m
  | _ => none

def array? : Value → Option (List Value)
  | array items => some items
  | _ => none

def hash? : Value → Option (List (Value × Value))
  | hash entries => some entries
  | _ => none

/-- Characters of a text, items of an array, entries of a hash. -/
def size? : Value → Option Nat
  | string s | symbol s => some s.length
  | array items => some items.length
  | hash entries => some entries.length
  | _ => none

end Value

/-- Is a value of this class? -/
def Primitive.admits (p : Primitive) (v : Value) : Bool :=
  p = .any || (!v.isUndefined && v.primitive = p)

end Conform
