import Conform.CharSet.Written

namespace Conform.Unicode

def spaceSeparators : CharSet := .written "20 A0 1680 2000-200A 202F 205F 3000"

def lineSeparators : CharSet := .written "2028"

def paragraphSeparators : CharSet := .written "2029"

def separators : CharSet := spaceSeparators ∪ lineSeparators ∪ paragraphSeparators

def controls : CharSet := .written "0-1F 7F-9F"

/-- Invisible characters that steer the layout. -/
def formats : CharSet := .written "
  AD 600-605 61C 6DD 70F 890-891 8E2 180E 200B-200F 202A-202E 2060-2064 2066-206F FEFF FFF9-FFFB
  110BD 110CD 13430-1343F 1BCA0-1BCA3 1D173-1D17A E0001 E0020-E007F"

def privateUse : CharSet := .written "E000-F8FF F0000-FFFFD 100000-10FFFD"

end Conform.Unicode
