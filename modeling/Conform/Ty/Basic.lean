import Conform.Func
import Conform.Metadata
import Conform.Rule.Basic

namespace Conform

/-- What stands in for absent input; `φ` is how functions are given. -/
inductive Fallback (φ : Type) where
  | literal (v : Value)
  | callable (f : φ)

/-- What is done to the keys of an input before they are looked up. -/
inductive KeyTransform (φ : Type) where
  | identity
  | symbolize
  | stringify
  | custom (f : φ)

/-- A declared key of a schema, with the type of its value. -/
structure Key (τ : Type) where
  name : Value
  type : τ
  required : Bool

/-- A hash with declared keys. A strict schema refuses all others; one that always resolves defaults
does so even when asked not to. -/
structure Schema (τ φ : Type) where
  keys : List (Key τ)
  strict : Bool := false
  alwaysDefaults : Bool := false
  transform : KeyTransform φ := .identity
  info : Metadata := {}

/-- An entry of a registry by its identifier, found when it is used. -/
structure Reference where
  registry : Nat
  identifier : String
  info : Metadata := {}

namespace Reference

def same (a b : Reference) : Bool :=
  a.identifier = b.identifier && a.registry = b.registry

def text (r : Reference) : String :=
  "Reference(" ++ r.identifier ++ ")"

end Reference

/-- A type: what values it accepts, and what it turns them into. -/
inductive Ty where
  /-- A class, which only trying checks. -/
  | nominal (p : Primitive) (info : Metadata)
  /-- A rule on what another type produces. -/
  | constrained (inner : Ty) (rule : Rule) (set : PredicateSet)
  /-- Conversions, applied in order before another type. -/
  | converted (inner : Ty) (functions : List Func)
  /-- What the left type accepts, and of the rest what the right one does. -/
  | sum (left right : Ty) (info : Metadata)
  /-- A value for absent input. -/
  | defaulted (inner : Ty) (value : Fallback Func)
  /-- Some values, also given by their indexes. -/
  | enum (inner : Ty) (values : List Value)
  | array (member : Ty) (info : Metadata)
  | map (key value : Ty) (info : Metadata)
  | schema (s : Schema Ty Func)
  /-- Gives the input back where another type fails. -/
  | safe (inner : Ty)
  /-- A safe type whose constraints have been removed. -/
  | lax (inner : Ty)
  /-- Nil for absent input. -/
  | maybe (inner : Ty)
  | reference (r : Reference)

instance : Inhabited Ty := ⟨.nominal .any {}⟩

mutual

def Ty.name : Ty → String
  | .nominal p _ => p.name
  | .constrained inner _ _ => inner.name
  | .converted inner _ => inner.name
  | .sum left right _ => left.name ++ " | " ++ right.name
  | .defaulted inner _ => inner.name
  | .enum inner _ => inner.name
  | .array member _ => "array<" ++ member.name ++ ">"
  | .map key value _ => "hash<" ++ key.name ++ ", " ++ value.name ++ ">"
  | .schema s => "hash\x7b" ++ ", ".intercalate (keyTexts s.keys) ++ "\x7d"
  | .safe inner => inner.name
  | .lax inner => inner.name
  | .maybe inner => "maybe<" ++ inner.name ++ ">"
  | .reference r => r.identifier

def keyTexts : List (Key Ty) → List String
  | [] => []
  | k :: ks => (k.name.plain ++ ": " ++ k.type.name) :: keyTexts ks

end

end Conform
