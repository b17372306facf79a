import Conform.Ty.Shape
import Conform.Outcome

namespace Conform

namespace Entries

/-- The entries by the texts of their keys; those of one text stay as the hash iterates. -/
def sorted (es : Entries) : Entries :=
  es.mergeSort fun a b => decide (a.1.debug ≤ b.1.debug)

end Entries

namespace KeyTransform

/-- Symbols and strings become each other; a function is given every key. -/
def apply : KeyTransform Func → Value → Result Value
  | symbolize, .string name => .ok (.symbol name)
  | stringify, .symbol name => .ok (.string name)
  | custom f, key => f.call key
  | _, key => .ok key

end KeyTransform

/-- How missing keys are dealt with: required ones may be skipped, and defaults left out. -/
structure ApplyOptions where
  skipMissing : Bool := false
  resolveDefaults : Bool := true
  deriving DecidableEq, Repr

def ApplyOptions.given : ApplyOptions :=
  { skipMissing := true, resolveDefaults := false }

inductive Supply where
  | value (v : Value)
  | missing
  | omitted

namespace Schema

/-- Puts a key over the one of the same name, or at the end. -/
def putKey {τ : Type} (key : Key τ) : List (Key τ) → List (Key τ)
  | [] => [key]
  | k :: ks => if k.name == key.name then key :: ks else k :: putKey key ks

/-- Adds keys; they win over those of the same names, and take their places. -/
def merge {τ φ : Type} (s : Schema τ φ) (keys : List (Key τ)) : Schema τ φ :=
  { s with keys := keys.foldl (fun ks k => putKey k ks) s.keys }

def ofKeys {τ φ : Type} (keys : List (Key τ)) : Schema τ φ :=
  merge { keys := [] } keys

def key? {τ φ : Type} (s : Schema τ φ) (name : Value) : Option (Key τ) :=
  s.keys.find? fun k => k.name == name

/-- Replaces the types of all keys. -/
def mapTypes {τ φ : Type} (f : τ → τ) (s : Schema τ φ) : Schema τ φ :=
  { s with keys := s.keys.map fun k => { k with type := f k.type } }

/-- The input with its keys transformed in the order of their texts; of two that become equal, the
later wins. -/
def present {τ : Type} (s : Schema τ Func) (input : Entries) : Result Entries :=
  input.sorted.foldlM (fun es e => return es.insert (← s.transform.apply e.1) e.2) []

/-- The keys that are not declared, by their texts. -/
def unknown {τ φ : Type} (s : Schema τ φ) (order : Iteration) (present : Entries) : Entries :=
  Entries.sorted ((order.arrange present).filter fun e => (s.key? e.1).isNone)

/-- A present key has its value. A missing one whose type fills in gets no value, so that it does;
another is missing if it is required. -/
def supply {φ : Type} (s : Schema Ty φ) (options : ApplyOptions) (present : Entries)
    (k : Key Ty) : Supply :=
  match present.get? k.name with
  | some v => .value v
  | none =>
    if k.type.isDefault && (options.resolveDefaults || s.alwaysDefaults) then .value .undefined
    else if k.required && !options.skipMissing then .missing
    else .omitted

def keep (output : Entries) (name value : Value) : Entries :=
  if value.isUndefined then output else output.insert name value

def coerceKeys (call : Ty → Value → Run (Result Value)) (supply : Key Ty → Supply) :
    List (Key Ty) → Entries → Run (Result Entries)
  | [], output => .ok (.ok output)
  | k :: ks, output =>
    match supply k with
    | .omitted => coerceKeys call supply ks output
    | .missing => .ok (.error (.of (.missingKey k.name)))
    | .value v => do
      match ← call k.type v with
      | .error e => return .error (.of (.schema k.name v e))
      | .ok w => coerceKeys call supply ks (keep output k.name w)

def coerce (order : Iteration) (call : Ty → Value → Run (Result Value)) (s : Schema Ty Func)
    (options : ApplyOptions) (input : Value) : Run (Result Value) :=
  match input with
  | .hash entries =>
    match s.present entries with
    | .error e => .ok (.error e)
    | .ok present =>
      let unknown := s.unknown order present
      if s.strict && !unknown.isEmpty then
        .ok (.error (.of (.unknownKeys (unknown.map Prod.fst))))
      else do
        return (← coerceKeys call (s.supply options present) s.keys []).map .hash
  | input => .ok (.error (.coercion input "must be a hash"))

def attemptKeys (attempt : Ty → Value → Run Outcome) (supply : Key Ty → Supply) :
    List (Key Ty) → Run (List (Value × Outcome))
  | [] => .ok []
  | k :: ks =>
    match supply k with
    | .omitted => attemptKeys attempt supply ks
    | .missing => do
      return (k.name, .refused .undefined "is missing") :: (← attemptKeys attempt supply ks)
    | .value v => do
      let outcome ← attempt k.type v
      return (k.name, outcome) :: (← attemptKeys attempt supply ks)

def outputs (results : List (Value × Outcome)) : Entries :=
  results.foldl (fun es r => keep es r.1 r.2.input) []

def outcome (output : Entries) (results : List (Value × Outcome)) : Outcome :=
  if results.all (·.2.isSuccess) then .success (.hash output)
  else .failure (.hash output) (.keys results)

def attempt (order : Iteration) (attempt : Ty → Value → Run Outcome) (s : Schema Ty Func)
    (options : ApplyOptions) (input : Value) : Run Outcome :=
  match input with
  | .hash entries =>
    match s.present entries with
    | .error e => .ok (.refused (.hash entries) e.message)
    | .ok present => do
      let results ← attemptKeys attempt (s.supply options present) s.keys
      let refused := if s.strict then
          (s.unknown order present).map fun e => (e.1, Outcome.refused e.2 "is not allowed")
        else []
      return outcome (outputs results) (results ++ refused)
  | input => .ok (.refused input "must be a hash")

end Schema

end Conform
