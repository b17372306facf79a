import Conform.Schema

namespace Conform

/-- The value of a fallback; a function is called without a value. -/
def Fallback.evaluate : Fallback Func → Result Value
  | .literal v => .ok v
  | .callable f => f.call .undefined

namespace Ty

def convert (functions : List Func) (input : Value) : Result Value :=
  functions.foldlM (fun v f => f.call v) input

/-- One of the given values stands for itself, and an index for the value at it. -/
def pick (values : List Value) (input : Value) : Value :=
  if values.any (· == input) then input
  else
    match input with
    | .int index =>
      if 0 ≤ index.toInt then (values[index.toInt.toNat]?).getD input else input
    | input => input

def check (rule : Rule) (set : PredicateSet) (v : Value) : Outcome :=
  let verdict := rule.judge set v
  if verdict.holds then .success v else .refused v verdict.explanation

def firstFailure? (outcomes : List Outcome) : Option (Nat × Explanation) :=
  outcomes.zipIdx.findSome? fun (outcome, index) => outcome.error?.map fun e => (index, e)

/-- An array is accepted when all its items are; undefined ones are left out. -/
def ofItems (outcomes : List Outcome) : Outcome :=
  let items := (outcomes.map Outcome.input).filter (!·.isUndefined)
  match firstFailure? outcomes with
  | none => .success (.array items)
  | some (index, e) => .failure (.array items) (.element index e)

def attemptEntry (key value : Value → Run Outcome) (e : Value × Value) :
    Run (Value × Outcome × Outcome) := do
  let k ← key e.1
  let v ← value e.2
  return (e.1, k, v)

/-- An entry fails with its value; if its key fails, for that reason. -/
def entryOutcome (key value : Outcome) : Outcome :=
  match key with
  | .success _ => value
  | .failure _ e => .refused value.input ("invalid key: " ++ e.text)

def addEntry (output : Entries) : Value × Outcome × Outcome → Entries
  | (_, .success key, value) => output.insert key value.input
  | (_, .failure _ _, _) => output

def ofEntries (outcomes : List (Value × Outcome × Outcome)) : Outcome :=
  Schema.outcome (outcomes.foldl addEntry [])
    (outcomes.map fun o => (o.1, entryOutcome o.2.1 o.2.2))

/-- Tries a type on a value. -/
def attempt (scope : Scope) : Nat → Ty → Value → Run Outcome
  | 0, _, _ => .error .depth
  | fuel + 1, ty, input =>
    match ty with
    | nominal p _ =>
      if p.admits input then .ok (.success input)
      else .ok (.refused input (input.text ++ " must be an instance of " ++ p.name))
    | constrained inner rule set => do
      match ← attempt scope fuel inner input with
      | .success v => return check rule set v
      | failure => return failure
    | converted inner functions =>
      match convert functions input with
      | .ok v => attempt scope fuel inner v
      | .error e => .ok (.refused input e.message)
    | sum left right _ => do
      match ← attempt scope fuel left input with
      | .success v => return .success v
      | .failure _ e =>
        match ← attempt scope fuel right input with
        | .success v => return .success v
        | .failure v f => return .failure v (.list [e, f])
    | defaulted inner value =>
      let substitute := Outcome.ofResult .undefined value.evaluate
      if input.isAbsent then .ok substitute
      else do
        match ← attempt scope fuel inner input with
        | .success .nil => return substitute
        | outcome => return outcome
    | enum inner values => attempt scope fuel inner (pick values input)
    | array member _ =>
      match input with
      | .array items => do return ofItems (← items.mapM (attempt scope fuel member))
      | input => .ok (.refused input (input.text ++ " must be an instance of array"))
    | map key value _ =>
      match input with
      | .hash entries => do
        return ofEntries (← (Entries.sorted entries).mapM
          (attemptEntry (attempt scope fuel key) (attempt scope fuel value)))
      | input => .ok (.refused input "must be a hash")
    | schema s => s.attempt scope.iteration (attempt scope fuel) {} input
    | safe inner | lax inner => attempt scope fuel inner input
    | maybe inner => if input.isAbsent then .ok (.success .nil) else attempt scope fuel inner input
    | reference r => do
      match ← r.resolve scope fuel with
      | .ok ty => attempt scope fuel ty input
      | .error e => return .refused input e.message

/-- Is a value accepted? Most types try it; some need less. -/
def accepts (scope : Scope) : Nat → Ty → Value → Run Bool
  | 0, _, _ => .error .depth
  | fuel + 1, ty, input =>
    match ty with
    | nominal p _ => .ok (p.admits input)
    | converted inner functions =>
      match convert functions input with
      | .ok v => accepts scope fuel inner v
      | .error _ => .ok false
    | sum left right _ => do
      if ← accepts scope fuel left input then return true else accepts scope fuel right input
    | defaulted inner _ => if input.isUndefined then .ok true else accepts scope fuel inner input
    | enum inner values => accepts scope fuel inner (pick values input)
    | safe inner | lax inner => accepts scope fuel inner input
    | maybe inner => if input.isAbsent then .ok true else accepts scope fuel inner input
    | reference r => do
      match ← r.resolve scope fuel with
      | .ok ty => accepts scope fuel ty input
      | .error _ => return false
    | ty => return (← attempt scope (fuel + 1) ty input).isSuccess

/-- The items of an array, numbered from an index on, up to the first that fails; undefined ones are
left out. -/
def coerceItems (call : Value → Run (Result Value)) : Nat → List Value → Run (Result (List Value))
  | _, [] => .ok (.ok [])
  | index, item :: items => do
    match ← call item with
    | .error e => return .error (e.within (toString index))
    | .ok v =>
      match ← coerceItems call (index + 1) items with
      | .error e => return .error e
      | .ok vs => return .ok (if v.isUndefined then vs else v :: vs)

def coerceEntries (key value : Value → Run (Result Value)) :
    Entries → Entries → Run (Result Entries)
  | [], output => .ok (.ok output)
  | (k, v) :: entries, output => do
    match ← key k with
    | .error e => return .error (.of (.schema k k e))
    | .ok newKey =>
      match ← value v with
      | .error e => return .error (.of (.schema k v e))
      | .ok newValue => coerceEntries key value entries (output.insert newKey newValue)

/-- Converts a value by a type, with an error where that fails. -/
def coerce (scope : Scope) : Nat → Ty → Value → Run (Result Value)
  | 0, _, _ => .error .depth
  | fuel + 1, ty, input =>
    match ty with
    | nominal _ _ => .ok (.ok input)
    | constrained inner rule set => do
      match ← coerce scope fuel inner input with
      | .ok v => return (check rule set v).toResult
      | .error e => return .error e
    | converted inner functions =>
      match convert functions input with
      | .ok v => coerce scope fuel inner v
      | .error e => .ok (.error e)
    | sum left right _ => do
      match ← attempt scope fuel left input with
      | .success v => return .ok v
      | .failure _ _ => coerce scope fuel right input
    | defaulted inner value =>
      if input.isAbsent then .ok value.evaluate
      else do
        match ← coerce scope fuel inner input with
        | .ok .nil => return value.evaluate
        | result => return result
    | enum inner values => coerce scope fuel inner (pick values input)
    | array member _ =>
      match input with
      | .array items => do
        return (← coerceItems (coerce scope fuel member) 0 items).map .array
      | input => .ok (.ok input)
    | map key value _ =>
      match input with
      | .hash entries => do
        return (← coerceEntries (coerce scope fuel key) (coerce scope fuel value)
          (Entries.sorted entries) []).map .hash
      | input => .ok (.error (.coercion input "must be a hash"))
    | schema s => s.coerce scope.iteration (coerce scope fuel) {} input
    | safe inner | lax inner => do
      match ← coerce scope fuel inner input with
      | .ok v => return .ok v
      | .error _ => return .ok input
    | maybe inner => if input.isAbsent then .ok (.ok .nil) else coerce scope fuel inner input
    | reference r => do
      match ← r.resolve scope fuel with
      | .ok ty => coerce scope fuel ty input
      | .error e => return .error e

/-- Converts a value by a schema with options, which no other type heeds. -/
def apply (scope : Scope) (fuel : Nat) (options : ApplyOptions) (ty : Ty) (input : Value) :
    Run (Result Value) :=
  match ty with
  | schema s => s.coerce scope.iteration (coerce scope fuel) options input
  | ty => ty.coerce scope fuel input

def attemptOrElse (scope : Scope) (fuel : Nat) (onFailure : Outcome → Outcome) (ty : Ty)
    (input : Value) : Run Outcome := do
  match ← ty.attempt scope fuel input with
  | .success v => return .success v
  | failure => return onFailure failure

def coerceOrElse (scope : Scope) (fuel : Nat) (fallback : Value → Value) (ty : Ty)
    (input : Value) : Run Value := do
  match ← ty.attempt scope fuel input with
  | .success v => return v
  | .failure v _ => return fallback v

end Ty

end Conform
