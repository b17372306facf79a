import Conform.Registry.Identifier
import Conform.Ty.Build

namespace Conform

/-- Types by their identifiers, and those that were built of parts when they were looked up. -/
structure Registry where
  number : Nat
  types : List (String × Ty) := []
  parametrized : List (String × Ty) := []
  predicates : PredicateSet := Standard.predicates

namespace Registry

def contains (r : Registry) (identifier : String) : Bool :=
  (r.types.lookup identifier).isSome

def size (r : Registry) : Nat :=
  r.types.length

def identifiers (r : Registry) : List String :=
  sortTexts (r.types.map Prod.fst)

def register (r : Registry) (identifier : String) (ty : Ty) : Result Registry :=
  if r.contains identifier then .error (.of (.alreadyRegistered identifier))
  else .ok { r with types := (identifier, ty) :: r.types }

def known? (r : Registry) (identifier : String) : Option Ty :=
  (r.types.lookup identifier).or (r.parametrized.lookup identifier)

def unknown (identifier : String) : Error :=
  .of (.unknownType identifier)

/-- Keeps what was built for an identifier, unless something is kept already. -/
def keep (r : Registry) (identifier : String) (ty : Ty) : Registry :=
  if (r.parametrized.lookup identifier).isSome then r
  else { r with parametrized := (identifier, ty) :: r.parametrized }

/-- Lookups change what a registry keeps, even those that fail. -/
abbrev Lookup := ExceptT Error (StateM Registry)

/-- The type of an identifier. One with parameters is built of the types of its parts and kept. -/
def find : Nat → String → Lookup Ty
  | 0, identifier => throw (unknown identifier)
  | fuel + 1, identifier => do
    match (← get).known? identifier with
    | some ty => return ty
    | none =>
      match Identifier.params? identifier with
      | none => throw (unknown identifier)
      | some (base, params) =>
        let base ← find fuel base
        let built ← match params with
          | [member] => do
            let member ← find fuel member
            MonadExcept.ofExcept (base.ofMember member)
          | [key, value] => do
            let key ← find fuel key
            let value ← find fuel value
            MonadExcept.ofExcept (base.ofMap key value)
          | _ => throw (unknown identifier)
        modify fun r => r.keep identifier built
        return built

/-- The type of an identifier; each of its parts is shorter than it. -/
def get (r : Registry) (identifier : String) : Result Ty × Registry :=
  (find (identifier.length + 1) identifier).run r

def reference (r : Registry) (identifier : String) : Ty :=
  .reference { registry := r.number, identifier }

def text (r : Registry) : String :=
  "Registry \x7b types: " ++ toString r.types.length ++ ", parametrized: " ++
    toString r.parametrized.length ++ " \x7d"

end Registry

end Conform
