import Conform.Value.Text

namespace Conform

/-- Where an error arose: the type that was applied, and the keys and indexes that lead to the
value, outermost first. -/
structure Context where
  typeName : Option String := none
  path : List String := []
  deriving DecidableEq, Repr, Inhabited

namespace Context

def text (c : Context) : String :=
  let name := c.typeName.elim "" ("in " ++ ·)
  if c.path.isEmpty then name
  else name ++ (if c.typeName.isSome then " " else "") ++ "at " ++ ".".intercalate c.path

end Context

/-- What is wrong, where `ε` is the type of the errors it may rest on. -/
inductive Problem (ε : Type) where
  /-- A function cannot convert the value. -/
  | coercion (value : Value) (message : String)
  /-- A value breaks a rule or has the wrong class. -/
  | constraint (value : Value) (explanation : String)
  /-- The value under a key is refused. -/
  | schema (key value : Value) (source : ε)
  | missingKey (key : Value)
  | unknownKeys (keys : List Value)
  /-- A named type cannot be built. -/
  | struct (name : String) (source : ε)
  | invalidArgument (message : String)
  | unknownType (identifier : String)
  | alreadyRegistered (identifier : String)
  | unknownPredicate (name : String)
  | unknownFunction (handle : String)
  | invalidAst (message : String)
  | serialization (message : String)
  /-- References that lead nowhere. -/
  | internal (message : String)
  deriving Repr, Inhabited

/-- A problem and, once a collection has been left, its place. -/
inductive Error where
  | mk (problem : Problem Error) (context : Option Context)
  deriving Repr, Inhabited

/-- The kind of a problem, by name. -/
def Problem.kind {ε : Type} : Problem ε → String
  | coercion _ _ => "Coercion"
  | constraint _ _ => "Constraint"
  | schema _ _ _ => "Schema"
  | missingKey _ => "MissingKey"
  | unknownKeys _ => "UnknownKeys"
  | struct _ _ => "Struct"
  | invalidArgument _ => "InvalidArgument"
  | unknownType _ => "UnknownType"
  | alreadyRegistered _ => "AlreadyRegistered"
  | unknownPredicate _ => "UnknownPredicate"
  | unknownFunction _ => "UnknownFunction"
  | invalidAst _ => "InvalidAst"
  | serialization _ => "Serialization"
  | internal _ => "Internal"

namespace Error

def problem : Error → Problem Error
  | ⟨problem, _⟩ => problem

def context : Error → Option Context
  | ⟨_, context⟩ => context

def of (problem : Problem Error) : Error :=
  ⟨problem, none⟩

def coercion (value : Value) (message : String) : Error :=
  of (.coercion value message)

def constraint (value : Value) (explanation : String) : Error :=
  of (.constraint value explanation)

def invalidArgument (message : String) : Error :=
  of (.invalidArgument message)

def internal (message : String) : Error :=
  of (.internal message)

/-- The error of building a named type. -/
def inStruct (name : String) (source : Error) : Error :=
  of (.struct name source)

/-- The error inside a collection, at a key or an index. -/
def within (segment : String) : Error → Error
  | ⟨problem, context⟩ =>
    let context := context.getD {}
    ⟨problem, some { context with path := segment :: context.path }⟩

/-- The error at a place, given anew. -/
def placed (context : Context) : Error → Error
  | ⟨problem, _⟩ => ⟨problem, some context⟩

def isCoercion (e : Error) : Bool :=
  match e.problem with
  | .coercion .. => true
  | _ => false

def isConstraint (e : Error) : Bool :=
  match e.problem with
  | .constraint .. => true
  | _ => false

def value? (e : Error) : Option Value :=
  match e.problem with
  | .coercion value _ | .constraint value _ | .schema _ value _ => some value
  | _ => none

/-- The text of an error; its place is no part of it. -/
def message : Error → String
  | ⟨.coercion value message, _⟩ => "cannot coerce " ++ value.text ++ ": " ++ message
  | ⟨.constraint value explanation, _⟩ =>
    value.text ++ " violates constraints (" ++ explanation ++ ")"
  | ⟨.schema key value source, _⟩ =>
    value.text ++ " is invalid for key " ++ key.text ++ ": " ++ source.message
  | ⟨.missingKey key, _⟩ => key.text ++ " is missing in hash input"
  | ⟨.unknownKeys keys, _⟩ => "unexpected keys " ++ (Value.array keys).text ++ " in hash input"
  | ⟨.struct name source, _⟩ => "[" ++ name ++ "] " ++ source.message
  | ⟨.invalidArgument message, _⟩ => "invalid argument: " ++ message
  | ⟨.unknownType identifier, _⟩ => "type not registered: " ++ identifier
  | ⟨.alreadyRegistered identifier, _⟩ => "type already registered: " ++ identifier
  | ⟨.unknownPredicate name, _⟩ => "unknown predicate: " ++ name
  | ⟨.unknownFunction handle, _⟩ => "function not registered: " ++ handle
  | ⟨.invalidAst message, _⟩ => "invalid ast: " ++ message
  | ⟨.serialization message, _⟩ => "serialization error: " ++ message
  | ⟨.internal message, _⟩ => "internal error: " ++ message

end Error

/-- A value or the first error. -/
abbrev Result (α : Type) := Except Error α

end Conform
