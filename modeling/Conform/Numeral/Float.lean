import Conform.Binary64.Reader
import Conform.Unicode.Blank

namespace Conform.Numeral

/-- Do two underscores stand side by side? -/
def hasDoubleUnderscore : List Char → Bool
  | '_' :: '_' :: _ => true
  | _ :: rest => hasDoubleUnderscore rest
  | [] => false

/-- The finite number that a literal with blanks around it stands for; single underscores count for
nothing. -/
def float? (s : String) : Option Binary64 :=
  let cs := Unicode.trim s.toList
  if cs.isEmpty || hasDoubleUnderscore cs then none
  else (Binary64.read? (cs.filter (· ≠ '_'))).filter Binary64.isFinite

end Conform.Numeral
