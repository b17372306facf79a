import Conform.Value.Equality

namespace Conform.Value

/-- What is written into a hasher, one piece after another. -/
inductive Piece where
  | variant (index : Nat)
  | bool (b : Bool)
  | int (n : Int64)
  | bits (word : UInt64)
  | text (s : String)
  | date (d : Date)
  | instant (second : Int) (nano : Nat)
  | length (n : Nat)
  deriving DecidableEq, Repr

-- What a fresh hasher makes of all that is written into it.
variable (digest : List Piece → UInt64)

mutual

/-- What a value writes into a hasher: a float its bits, a moment the instant that it shows, and a
hash what its entries come to in any order. -/
def pieces : Value → List Piece
  | undefined => [.variant 0]
  | nil => [.variant 1]
  | bool b => [.variant 2, .bool b]
  | int n => [.variant 3, .int n]
  | float x => [.variant 4, .bits x.bits]
  | string s => [.variant 5, .text s]
  | symbol s => [.variant 6, .text s]
  | date d => [.variant 7, .date d]
  | dateTime m => [.variant 8, .instant m.universal m.nano]
  | array items => .variant 9 :: .length items.length :: itemPieces items
  | hash entries => [.variant 10, .length entries.length, .bits (combined entries 0)]
termination_by structural v => v

def itemPieces : List Value → List Piece
  | [] => []
  | item :: items => pieces item ++ itemPieces items
termination_by structural items => items

/-- Joins a word with the digests of the entries, each of which has a hasher of its own. -/
def combined : List (Value × Value) → UInt64 → UInt64
  | [], word => word
  | e :: entries, word => combined entries (word ^^^ entryDigest e)
termination_by structural entries => entries

def entryDigest : Value × Value → UInt64
  | (key, value) => digest (pieces key ++ pieces value)
termination_by structural e => e

end

end Conform.Value
