import Conform.Ty.Basic

namespace Conform

/-- Why an evaluation stopped without an answer: it went too deep, or it needs an entry of a
registry that has not been looked up. -/
inductive Halt where
  | depth
  | lookup (registry : Nat) (identifier : String)
  deriving DecidableEq, Repr

abbrev Run (α : Type) := Except Halt α

/-- What the entries of registries are, and how the hashes that an evaluation builds iterate. -/
structure Scope where
  find : Nat → String → Run (Result Ty)
  iteration : Iteration := .inserted

namespace Reference

/-- The error of an alias that leads back to an alias before it. -/
def cycle (chain : List Reference) (next : Reference) : Error :=
  .internal ("reference cycle: " ++
    " -> ".intercalate ((chain ++ [next]).map Reference.identifier))

/-- Follows aliases from a type on. The chain holds those that led to it. -/
def follow (scope : Scope) : Nat → List Reference → Ty → Run (Result Ty)
  | 0, _, .reference _ => .error .depth
  | fuel + 1, chain, .reference next =>
    if chain.any (·.same next) then .ok (.error (cycle chain next))
    else do
      match ← scope.find next.registry next.identifier with
      | .ok ty => follow scope fuel (chain ++ [next]) ty
      | .error e => return .error e
  | _, _, ty => .ok (.ok ty)

def resolve (scope : Scope) (fuel : Nat) (r : Reference) : Run (Result Ty) :=
  follow scope fuel [] (.reference r)

end Reference

end Conform
