import Conform.Proofs.Text.Quoted
import Conform.Proofs.Value.Hash
import Conform.Proofs.Value.Word

/-!
Values that are told by their texts, in which hashes stand as they iterate. Symbols are written
without quotes, every NaN reads alike and offsets are told in minutes, so a text tells its value if
it has no NaN and no other offset in it and no symbol inside of it has a name with a mark that may
end an item. A symbol that stands on its own may have any name.
-/

namespace Conform.Value

/-- The marks that may follow an item of an array, and a key or a value of a hash. -/
def endMarks : List Char :=
  [',', ' ', ']', '\x7d']

/-- The marks that values other than words start with. -/
def openMarks : List Char :=
  ['"', '[', '\x7b']

mutual

/-- Does the text of a value tell the value, wherever it stands? -/
def legible : Value → Bool
  | float x => !x.isNaN
  | dateTime m => m.onMinute
  | symbol s => s.toList.all fun c => decide (c ∉ endMarks)
  | array items => legibleItems items
  | hash entries => legibleEntries entries
  | _ => true

def legibleItems : List Value → Bool
  | [] => true
  | item :: items => legible item && legibleItems items

def legibleEntries : List (Value × Value) → Bool
  | [] => true
  | (key, value) :: entries => legible key && legible value && legibleEntries entries

end

/-- What follows an item: nothing, or one of the marks. -/
def Ends (rest : List Char) : Prop :=
  ∀ c ∈ rest.head?, c ∈ endMarks

/-- A text that is not empty and has no marks. -/
def Bare (cs : List Char) : Prop :=
  cs ≠ [] ∧ ∀ c ∈ cs, c ∉ endMarks ++ openMarks

section Items

variable {α : Type} (chars : α → List Char) (close : Char)

variable {chars close}

variable {R : α → α → Prop} {xs ys : List α} {r s : List Char}

end Items

/-- The text of a value tells the value and where it ends. -/
def Told (a : Value) : Prop :=
  ∀ b : Value, b.legible = true → ∀ r s, Ends r → Ends s →
    a.debug.toList ++ r = b.debug.toList ++ s → (a == b) = true ∧ r = s

end Conform.Value

namespace Conform.Entries

end Conform.Entries
