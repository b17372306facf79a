import Conform.Value.Basic

namespace Conform

namespace Value

mutual

/-- Equality of values: moments are equal when they show the same instant, and hashes when each
entry of one is an entry of the other. -/
def beq : Value → Value → Bool
  | undefined, undefined => true
  | nil, nil => true
  | bool a, bool b => a == b
  | int a, int b => a == b
  | float a, float b => a == b
  | string a, string b => a == b
  | symbol a, symbol b => a == b
  | date a, date b => a == b
  | dateTime a, dateTime b => a.same b
  | array xs, array ys => beqItems xs ys
  | hash es, hash fs => es.length == fs.length && cover es fs (fs.map fun _ => false)
  | _, _ => false
termination_by structural v => v

def beqItems : List Value → List Value → Bool
  | [], [] => true
  | x :: xs, y :: ys => beq x y && beqItems xs ys
  | _, _ => false
termination_by structural vs => vs

/-- Is every entry equal to one of the others, and each of these to an entry, if it has no mark? -/
def cover : List (Value × Value) → List (Value × Value) → List Bool → Bool
  | [], _, marks => marks.all id
  | e :: es, fs, marks =>
    let found := fs.map fun f => matches? e f
    found.any id && cover es fs (marks.zipWith or found)
termination_by structural es => es

def matches? : Value × Value → Value × Value → Bool
  | (k, v), f => beq k f.1 && beq v f.2
termination_by structural e => e

end

instance : BEq Value := ⟨beq⟩

end Value

/-- The entries of a hash under construction or inspection. -/
abbrev Entries := List (Value × Value)

namespace Entries

def get? (es : Entries) (key : Value) : Option Value :=
  (es.find? fun e => e.1 == key).map Prod.snd

def contains (es : Entries) (key : Value) : Bool :=
  es.any fun e => e.1 == key

/-- Adds an entry; it replaces the one of an equal key. -/
def insert : Entries → Value → Value → Entries
  | [], key, value => [(key, value)]
  | e :: es, key, value => if e.1 == key then (key, value) :: es else e :: insert es key value

/-- The entries of pairs taken in order. -/
def ofPairs (pairs : List (Value × Value)) : Entries :=
  pairs.foldl (fun es e => es.insert e.1 e.2) []

end Entries

/-- How new hashes iterate, by what has been inserted. -/
structure Iteration where
  arrange : Entries → Entries
  perm : ∀ es, (arrange es).Perm es

/-- Hashes iterate in the order of insertion. -/
def Iteration.inserted : Iteration :=
  ⟨id, List.Perm.refl⟩

end Conform
