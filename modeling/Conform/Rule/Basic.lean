import Conform.Error
import Conform.Value.Equality

namespace Conform

/-- A named test with its arguments; the value under test comes after them. -/
structure Predicate where
  name : String
  args : List Value
  deriving Inhabited, Repr

namespace Predicate

def applied (p : Predicate) (args : List Value) : String :=
  p.name ++ "(" ++ ", ".intercalate (args.map Value.text) ++ ")"

def text (p : Predicate) : String :=
  p.applied p.args

/-- What is said when a value fails the test. -/
def failure (p : Predicate) (input : Value) : String :=
  p.applied (p.args ++ [input]) ++ " failed"

instance : BEq Predicate := ⟨fun p q => p.name == q.name && Value.beqItems p.args q.args⟩

end Predicate

/-- Predicates joined by conjunction and disjunction. -/
inductive Rule where
  | predicate (p : Predicate)
  | and (left right : Rule)
  | or (left right : Rule)
  deriving Inhabited, Repr

namespace Rule

def text : Rule → String
  | predicate p => p.text
  | and l r => l.text ++ " AND " ++ r.text
  | or l r => "(" ++ l.text ++ " OR " ++ r.text ++ ")"

def predicates : Rule → List Predicate
  | predicate p => [p]
  | and l r | or l r => l.predicates ++ r.predicates

def find? (rule : Rule) (name : String) : Option Predicate :=
  rule.predicates.find? fun p => p.name = name

def beq : Rule → Rule → Bool
  | predicate p, predicate q => p == q
  | and l r, and l' r' => l.beq l' && r.beq r'
  | or l r, or l' r' => l.beq l' && r.beq r'
  | _, _ => false

instance : BEq Rule := ⟨beq⟩

end Rule

/-- A vocabulary of predicates. -/
structure PredicateSet where
  name : String
  /-- The rule that an option with an argument stands for. -/
  compile : String → Value → Result Rule
  /-- Does a value pass? Arguments of the wrong shape let none pass. -/
  holds : Predicate → Value → Bool

namespace PredicateSet

/-- The conjunction of the rules of some options. -/
def compileOptions (set : PredicateSet) (options : List (String × Value)) : Result Rule :=
  match options with
  | [] => .error (.invalidArgument "constraint options cannot be empty")
  | (name, arg) :: rest => do
    let first ← set.compile name arg
    rest.foldlM (fun rule option => return rule.and (← set.compile option.1 option.2)) first

end PredicateSet

/-- The verdict of a rule, and the text that accounts for it. -/
structure Verdict where
  holds : Bool
  explanation : String
  deriving DecidableEq, Repr

namespace Rule

/-- A rule judged from left to right as far as needed. The text names the predicates that decide. -/
def judge (set : PredicateSet) (input : Value) : Rule → Verdict
  | predicate p => ⟨set.holds p input, p.failure input⟩
  | and l r =>
    let left := l.judge set input
    if left.holds then r.judge set input else left
  | or l r =>
    let left := l.judge set input
    if left.holds then left
    else
      let right := r.judge set input
      if right.holds then right
      else ⟨false, left.explanation ++ " or " ++ right.explanation⟩

end Rule

end Conform
