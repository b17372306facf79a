import Conform.Error
import Conform.Value.Equality

namespace Conform

mutual

/-- Why a value was refused. -/
inductive Explanation where
  | message (text : String)
  /-- All alternatives were refused. -/
  | list (items : List Explanation)
  /-- An item of an array was refused. -/
  | element (index : Nat) (error : Explanation)
  /-- What became of the value under each key. -/
  | keys (entries : List (Value × Outcome))
  deriving Repr, Inhabited

/-- An accepted value with all conversions done, or a refused one with as many done as could be. -/
inductive Outcome where
  | success (value : Value)
  | failure (input : Value) (error : Explanation)
  deriving Repr, Inhabited

end

mutual

def Explanation.text : Explanation → String
  | .message text => text
  | .list items => " or ".intercalate (explanationTexts items)
  | .element index error => "[" ++ toString index ++ "] " ++ error.text
  | .keys entries => ", ".intercalate (failureTexts entries)

def explanationTexts : List Explanation → List String
  | [] => []
  | item :: items => item.text :: explanationTexts items

/-- The texts of the keys whose values were refused. -/
def failureTexts : List (Value × Outcome) → List String
  | [] => []
  | (_, .success _) :: entries => failureTexts entries
  | (key, .failure _ error) :: entries => (key.text ++ ": " ++ error.text) :: failureTexts entries

end

mutual

def Explanation.beq : Explanation → Explanation → Bool
  | .message a, .message b => a == b
  | .list a, .list b => explanationsBeq a b
  | .element i a, .element j b => i == j && a.beq b
  | .keys a, .keys b => outcomesBeq a b
  | _, _ => false

def explanationsBeq : List Explanation → List Explanation → Bool
  | [], [] => true
  | a :: as, b :: bs => a.beq b && explanationsBeq as bs
  | _, _ => false

def Outcome.beq : Outcome → Outcome → Bool
  | .success a, .success b => a == b
  | .failure a e, .failure b f => a == b && e.beq f
  | _, _ => false

def outcomesBeq : List (Value × Outcome) → List (Value × Outcome) → Bool
  | [], [] => true
  | (k, o) :: as, (l, p) :: bs => k == l && o.beq p && outcomesBeq as bs
  | _, _ => false

end

instance : BEq Explanation := ⟨Explanation.beq⟩

instance : BEq Outcome := ⟨Outcome.beq⟩

namespace Outcome

def refused (input : Value) (text : String) : Outcome :=
  .failure input (.message text)

def isSuccess : Outcome → Bool
  | .success _ => true
  | .failure .. => false

/-- The converted value, be it accepted or not. -/
def input : Outcome → Value
  | .success v => v
  | .failure v _ => v

def error? : Outcome → Option Explanation
  | .success _ => none
  | .failure _ e => some e

def map (f : Value → Value) : Outcome → Outcome
  | .success v => .success (f v)
  | o => o

/-- A refused value as an error about it. -/
def toResult : Outcome → Result Value
  | .success v => .ok v
  | .failure v e => .error (.constraint v e.text)

/-- An error about a value as a refusal of it. -/
def ofResult (input : Value) : Result Value → Outcome
  | .ok v => .success v
  | .error e => .refused input e.message

end Outcome

namespace Explanation

/-- The keys whose values were refused. -/
def failedKeys : Explanation → List Value
  | .keys entries => (entries.filter fun e => !e.2.isSuccess).map Prod.fst
  | _ => []

/-- What became of the value under a key. -/
def key? (e : Explanation) (key : Value) : Option Outcome :=
  match e with
  | .keys entries => (entries.find? fun e => e.1 == key).map Prod.snd
  | _ => none

end Explanation

end Conform
