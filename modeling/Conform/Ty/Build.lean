import Conform.Rule.Standard
import Conform.Ty.Equality
import Conform.Ty.Evaluate

namespace Conform

namespace Key

/-- A key of a type is required unless the type may be omitted or fills in for absent input. -/
def ofType (scope : Scope) (fuel : Nat) (name : Value) (type : Ty) : Run (Key Ty) :=
  return ⟨name, type, !(← type.info scope fuel).isOmittable && !type.isDefault⟩

end Key

namespace Ty

def classRule (p : Primitive) : Rule :=
  .predicate ⟨"type?", [.string p.name]⟩

def strict (p : Primitive) : Ty :=
  constrained (nominal p {}) (classRule p) Standard.predicates

/-- Adds constraints, compiled by the given vocabulary. A constrained type keeps its own vocabulary,
which also compiles them if none is given; an optional sum, a default and a maybe type have the
constraints inside. -/
def constrain (scope : Scope) (fuel : Nat) (options : List (String × Value))
    (given : Option PredicateSet) : Ty → Run (Result Ty)
  | constrained inner rule set =>
    .ok (((given.getD set).compileOptions options).map fun added =>
      constrained inner (.and rule added) set)
  | sum left right info => do
    if (← left.primitive scope fuel) = .nil then
      return (← right.constrain scope fuel options given).map fun r => sum left r info
    else return wrap (sum left right info)
  | defaulted inner value => do
    return (← inner.constrain scope fuel options given).map fun t => defaulted t value
  | maybe inner => do return (← inner.constrain scope fuel options given).map maybe
  | ty => .ok (wrap ty)
where
  wrap (ty : Ty) : Result Ty :=
    let set := given.getD Standard.predicates
    (set.compileOptions options).map fun rule => constrained ty rule set

def convertLast (f : Func) : Ty → Ty
  | converted inner functions => converted inner (functions ++ [f])
  | ty => converted ty [f]

def convertFirst (f : Func) : Ty → Ty
  | converted inner functions => converted inner (f :: functions)
  | ty => converted ty [f]

/-- Fills in a value that the type accepts; nil fills in for nothing where it is accepted anyway. -/
def withDefault (scope : Scope) (fuel : Nat) (v : Value) (ty : Ty) : Run (Result Ty) := do
  let optional ← if v.isNil then ty.isOptional scope fuel else pure false
  if optional then
    return .error (.invalidArgument
      ("nil cannot be used as a default of optional type " ++ ty.name))
  else if ← ty.accepts scope fuel v then return .ok (defaulted ty (.literal v))
  else return .error (.constraint v ("default value is not a valid " ++ ty.name))

/-- Restricts a type to some values, which may also be given by their indexes. -/
def enumeration (scope : Scope) (fuel : Nat) (values : List Value) (ty : Ty) :
    Run (Result Ty) :=
  if values.isEmpty then .ok (.error (.invalidArgument "an enum needs at least one value"))
  else do
    return (← ty.constrain scope fuel [("included_in", .array values)] none).map
      fun t => enum t values

def optional (ty : Ty) : Ty :=
  sum (strict .nil) ty {}

def toMaybe : Ty → Ty
  | maybe inner => maybe inner
  | ty => maybe ty

def toSafe : Ty → Ty
  | safe inner => safe inner
  | lax inner => lax inner
  | ty => safe ty

def toLax : Ty → Ty
  | lax inner => lax inner
  | ty => lax ty.strip

/-- Changes what is inside all layers, if it is of the kind that is expected. -/
def atCore (expected : String) (change : Ty → Option Ty) : Ty → Result Ty
  | constrained inner rule set =>
    (inner.atCore expected change).map fun t => constrained t rule set
  | converted inner functions =>
    (inner.atCore expected change).map fun t => converted t functions
  | defaulted inner value => (inner.atCore expected change).map fun t => defaulted t value
  | enum inner values => (inner.atCore expected change).map fun t => enum t values
  | safe inner => (inner.atCore expected change).map safe
  | lax inner => (inner.atCore expected change).map fun t => lax t.strip
  | maybe inner => (inner.atCore expected change).map maybe
  | ty =>
    match change ty with
    | some t => .ok t
    | none => .error (.invalidArgument (ty.name ++ " is not " ++ expected))

def ofMember (ty member : Ty) : Result Ty :=
  ty.atCore "an array type" fun
    | nominal .array info | array _ info => some (array member info)
    | _ => none

def ofMap (ty key value : Ty) : Result Ty :=
  ty.atCore "a hash type" fun
    | nominal .hash info | map _ _ info => some (map key value info)
    | _ => none

/-- Gives a hash type a schema, built from the one it may have. -/
def withSchema (build : Option (Schema Ty Func) → Schema Ty Func) : Ty → Result Ty :=
  atCore "a hash type" fun
    | nominal .hash info => some (schema { build none with info })
    | schema s => some (schema (build (some s)))
    | _ => none

def onSchema (change : Schema Ty Func → Schema Ty Func) : Ty → Result Ty :=
  atCore "a schema" fun
    | schema s => some (schema (change s))
    | _ => none

/-- Declares keys, on top of those declared before. -/
def declare (keys : List (Key Ty)) : Ty → Result Ty :=
  withSchema fun
    | some s => s.merge keys
    | none => .ofKeys keys

def refuseUnknown : Ty → Result Ty :=
  onSchema fun s => { s with strict := true }

def withTransform (transform : KeyTransform Func) : Ty → Result Ty :=
  onSchema fun s => { s with transform }

def declareStrict (keys : List (Key Ty)) (ty : Ty) : Result Ty := do
  (← ty.declare keys).refuseUnknown

/-- Declares keys, refuses others, and always resolves defaults. -/
def declareComplete (keys : List (Key Ty)) : Ty → Result Ty :=
  withSchema fun s =>
    { (s.getD (.ofKeys [])).merge keys with strict := true, alwaysDefaults := true }

/-- A key that nothing can fail. -/
def weaken (k : Key Ty) : Key Ty :=
  { k with type := k.type.toSafe, required := false }

def declareWeak (keys : List (Key Ty)) : Ty → Result Ty :=
  declare (keys.map weaken)

def declareSymbols (keys : List (Key Ty)) (ty : Ty) : Result Ty := do
  (← ty.declareWeak keys).withTransform .symbolize

def note (scope : Scope) (fuel : Nat) (name : String) (v : Value) (ty : Ty) : Run Ty :=
  ty.mergeInfo scope fuel (.ofList [(name, v)])

/-- Lets a key of the type be left out. -/
def omittable (scope : Scope) (fuel : Nat) (ty : Ty) : Run Ty :=
  ty.note scope fuel Metadata.omittable (.bool true)

end Ty

end Conform
