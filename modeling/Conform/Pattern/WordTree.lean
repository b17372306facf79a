import Conform.Pattern.Store

namespace Conform.Pattern

/-- Words up to each that is empty. -/
def untilEmpty : List (List Nat) → List (List (List Nat))
  | [] => [[]]
  | [] :: ws => [] :: untilEmpty ws
  | w :: ws =>
    match untilEmpty ws with
    | s :: ss => (w :: s) :: ss
    | [] => [[w]]

def firstBytes (words : List (List Nat)) : List Nat :=
  (words.filterMap List.head?).eraseDups

def following (byte : Nat) (words : List (List Nat)) : List (List Nat) :=
  words.filterMap fun
    | b :: w => if b = byte then some w else none
    | [] => none

/-- The part of an automaton that reads one of some words, the first of them before the later ones:
a word that ends parts those before it from those after it. No word is longer than `depth`. -/
def buildWords : Nat → List (List Nat) → Building Unit
  | 0, _ => return ()
  | depth + 1, words => do
    let ends := if words.head? = some [] then [[]] else []
    let parts := untilEmpty (ends ++ words.dropWhile List.isEmpty)
    let counts ← parts.mapM fun part => do
      let bytes := firstBytes part
      bytes.forM fun byte => do
        let rests := following byte part
        if rests.any (!·.isEmpty) then buildWords depth rests
      match bytes.length with
      | 0 => return 0
      | 1 => Building.addPlain; return 1
      | n =>
        let _ ← Building.addState n
        return 1
    Building.addPlain
    (List.range (counts.sum + parts.length - 1)).forM fun _ => Building.leadOn true

end Conform.Pattern
