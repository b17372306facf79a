import Conform.CharSet.Written

namespace Conform.Unicode

def blanks : CharSet := .written "9-D 20 85 A0 1680 2000-200A 2028-2029 202F 205F 3000"

def isBlank (c : Char) : Bool :=
  blanks.contains c

def trimLeft (cs : List Char) : List Char :=
  cs.dropWhile isBlank

/-- A text without the white space at its two ends. -/
def trim (cs : List Char) : List Char :=
  (trimLeft (trimLeft cs).reverse).reverse

def trimString (s : String) : String :=
  String.ofList (trim s.toList)

end Conform.Unicode
