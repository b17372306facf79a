import Conform.Unicode.Blank

namespace Conform.Calendar

/-- A reader takes a value from the start of a text. -/
abbrev Reader (α : Type) := List Char → Option (α × List Char)

def number (least most : Nat) : Reader Nat := fun cs =>
  let digits := (cs.takeWhile Char.isDigit).take most
  if digits.length < least then none
  else some (digits.foldl (fun n c => 10 * n + (c.toNat - 48)) 0, cs.drop digits.length)

def digits : Reader Nat := fun cs =>
  number 1 cs.length cs

/-- A year has any number of digits after a sign and at most four without one. -/
def year : Reader Int
  | '-' :: cs => (digits cs).map (fun (n, rest) => (-(n : Int), rest))
  | '+' :: cs => (digits cs).map (fun (n, rest) => (n, rest))
  | cs => (number 1 4 cs).map (fun (n, rest) => (n, rest))

def literal (text : List Char) : Reader Unit := fun cs =>
  if text.isPrefixOf cs then some ((), cs.drop text.length) else none

/-- The names of the months: what every name starts with, and its optional rest. -/
def monthNames : List (String × String) :=
  [("jan", "uary"), ("feb", "ruary"), ("mar", "ch"), ("apr", "il"), ("may", ""), ("jun", "e"),
   ("jul", "y"), ("aug", "ust"), ("sep", "tember"), ("oct", "ober"), ("nov", "ember"),
   ("dec", "ember")]

def startsWithName (name : List Char) (cs : List Char) : Bool :=
  name.isPrefixOf (cs.map Char.toLower)

def shortMonth : Reader Nat := fun cs =>
  (monthNames.zipIdx.find? fun ((start, _), _) => startsWithName start.toList cs).map
    fun (_, index) => (index + 1, cs.drop 3)

/-- The number of a month given by its whole name or by the first three letters. -/
def longMonth : Reader Nat := fun cs =>
  (monthNames.zipIdx.find? fun ((start, _), _) => startsWithName start.toList cs).map
    fun ((_, rest), index) =>
      let after := cs.drop 3
      (index + 1, if startsWithName rest.toList after then after.drop rest.length else after)

/-- Nanoseconds from the digits after a point; digits past the ninth are dropped. -/
def nanoseconds : Reader Nat := fun cs =>
  let all := cs.takeWhile Char.isDigit
  if all.isEmpty then none
  else
    let kept := all.take 9
    some (kept.foldl (fun n c => 10 * n + (c.toNat - 48)) 0 * Nat.pow 10 (9 - kept.length),
      cs.drop all.length)

def fraction : Reader Nat
  | '.' :: cs => nanoseconds cs
  | cs => some (0, cs)

/-- An offset: a sign, two digits, what separates hours and minutes, and two digits. -/
def signedOffset (separator : Reader Unit) : Reader Int
  | sign :: cs => do
    let negative ← if sign = '+' then some false
      else if sign = '-' ∨ sign = '\u2212' then some true
      else none
    let (hours, cs) ← number 2 2 cs
    let ((), cs) ← separator cs
    let (minutes, cs) ← number 2 2 cs
    if minutes < 60 then
      let total : Int := (hours * 60 + minutes) * 60
      some (if negative then -total else total, cs)
    else none
  | [] => none

/-- Hours and minutes joined by a colon. -/
def colon : Reader Unit :=
  literal [':']

/-- Hours and minutes joined by any colons and blanks, or by nothing. -/
def looseColon : Reader Unit := fun cs =>
  some ((), cs.dropWhile fun c => c = ':' || Unicode.isBlank c)

def offsetOrZulu (separator : Reader Unit) : Reader Int
  | 'Z' :: cs => some (0, cs)
  | 'z' :: cs => some (0, cs)
  | cs => signedOffset separator cs

end Conform.Calendar
