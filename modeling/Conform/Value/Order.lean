import Conform.Value.Basic

namespace Conform.Value

/-- The order of two values of one class, numbers being one class; collections have none. -/
def compare? : Value → Value → Option Ordering
  | nil, nil => some .eq
  | bool a, bool b => some (compare a.toNat b.toNat)
  | int a, int b => some (compare a.toInt b.toInt)
  | float a, float b => a.compare? b
  | int a, float b => (Binary64.ofInt a.toInt).compare? b
  | float a, int b => a.compare? (Binary64.ofInt b.toInt)
  | string a, string b => some (compare a b)
  | symbol a, symbol b => some (compare a b)
  | date a, date b => some (a.compare b)
  | dateTime a, dateTime b => some (a.compare b)
  | _, _ => none

end Conform.Value
