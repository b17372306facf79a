import Conform.CharSet.Basic

namespace Conform.CharSet

def words (cs : List Char) : List (List Char) :=
  (cs.foldr (fun c ws =>
    if c.isWhitespace then [] :: ws
    else match ws with
      | w :: ws => (c :: w) :: ws
      | [] => [[c]]) []).filter (!·.isEmpty)

def hexNumber (cs : List Char) : Nat :=
  cs.foldl (fun n c => 16 * n + (if c.isDigit then c.toNat - 48 else c.toNat - 55)) 0

/-- What stands before and after the first of a character. -/
def cut (c : Char) (cs : List Char) : List Char × List Char :=
  (cs.takeWhile (· ≠ c), (cs.dropWhile (· ≠ c)).drop 1)

/-- The code points from the first on in steps, each as a range. -/
def steps (first count step : Nat) : List (Nat × Nat) :=
  (List.range count).map fun i => (first + step * i, first + step * i)

/-- A word of a written set: a code point, two with all between them, or two and a step. -/
def wordRanges (w : List Char) : List (Nat × Nat) :=
  match cut '-' w with
  | (first, []) => [(hexNumber first, hexNumber first)]
  | (first, rest) =>
    let (a, last, step) := (hexNumber first, hexNumber (cut '/' rest).1, hexNumber (cut '/' rest).2)
    if step = 0 then [(a, last)] else steps a ((last - a) / step + 1) step

/-- A set written as code points in hexadecimal, in order: `41-5A 61 100-136/2`. -/
def written (text : String) : CharSet :=
  ⟨((words text.toList).flatMap wordRanges).toArray⟩

end Conform.CharSet
